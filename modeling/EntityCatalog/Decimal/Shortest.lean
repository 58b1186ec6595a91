import EntityCatalog.Decimal.Binary64

/-!
# The shortest decimal of a double

Of the decimals that round to a double, `Binary64.shortest` is one with the fewest digits, and of
those the nearest to the double. `Binary64.text` lays it out.
-/

namespace EntityCatalog

/-- The number `digits · 10^power`. -/
structure Decimal where
  digits : Nat
  power : Int
  deriving DecidableEq, Repr

/-- Drop the final zeros of the digits; `fuel` bounds their number. -/
def Decimal.strip (fuel : Nat) (d : Decimal) : Decimal :=
  match fuel with
  | 0 => d
  | fuel + 1 =>
    if d.digits ≠ 0 ∧ d.digits % 10 = 0 then Decimal.strip fuel ⟨d.digits / 10, d.power + 1⟩
    else d

namespace Binary64

/-- `num / den` times `10^k`, as a pair. -/
def scaleTenExact (num den : Nat) (k : Int) : Nat × Nat :=
  if 0 ≤ k then (num * Nat.pow 10 k.toNat, den) else (num, den * Nat.pow 10 (-k).toNat)

/-- The power of ten of the leading digit of `num / den`. -/
def leadingPower (num den : Nat) : Int :=
  let k : Int := (digitCount num : Int) - digitCount den
  let (n, d) := scaleTenExact num den (-k)
  if d ≤ n then k else k - 1

/-- The decimals of `n` digits below and above a double that round to it, the nearer first. -/
def candidate? (x : Binary64) (lead : Int) (n : Nat) : Option Decimal :=
  let power := lead - (n - 1 : Nat)
  -- quarters of the last binary place, so that the ends of the rounding interval are whole
  let low := if x.mantissa = Nat.pow 2 52 ∧ minExponent < x.exponent then 1 else 2
  let (un, ud) := scale 1 1 (x.exponent - 2)
  let (un, ud) := scaleTenExact un ud (-power)
  let value := 4 * x.mantissa * un
  let least := (4 * x.mantissa - low) * un
  let most := (4 * x.mantissa + 2) * un
  let fits (d : Nat) : Bool :=
    if x.mantissa % 2 = 0 then least ≤ d * ud && d * ud ≤ most
    else least < d * ud && d * ud < most
  let down := value / ud
  let excess := value % ud
  let downFirst := 2 * excess < ud || (2 * excess == ud && down % 2 == 0)
  let (first, second) := if downFirst then (down, down + 1) else (down + 1, down)
  if fits first && first ≠ 0 then some ⟨first, power⟩
  else if fits second && second ≠ 0 then some ⟨second, power⟩
  else none

/-- The shortest decimal that rounds to the magnitude of a double, the nearest such one, and of
two equally near ones the one with an even last digit. -/
def shortest (x : Binary64) : Decimal :=
  if x.isZero then ⟨0, 0⟩
  else
    let (num, den) := x.ratio
    let lead := leadingPower num den
    match (List.range 17).findSome? fun i => x.candidate? lead (i + 1) with
    | some d => Decimal.strip 20 d
    | none => ⟨num / den, 0⟩

/-! ## Layout -/

/-- The powers of the leading digit that are written without an exponent: from the first, below
the second. -/
def positional : Int × Int := (-5, 16)

/-- The text of a double: the digits of `shortest` around a point, `.0` after a whole number, and
outside the positional range one digit before the point and a signed exponent. -/
def text (x : Binary64) : String :=
  let sign := if x.negative then "-" else ""
  let d := x.shortest
  let digits := Nat.toDigits 10 d.digits
  let lead : Int := d.power + (digits.length - 1 : Nat)
  let zeros (n : Nat) : List Char := List.replicate n '0'
  let body : List Char :=
    if x.isZero then ['0', '.', '0']
    else if positional.1 ≤ lead ∧ lead < positional.2 then
      if lead < 0 then '0' :: '.' :: zeros ((-lead).toNat - 1) ++ digits
      else
        let whole := lead.toNat + 1
        if digits.length ≤ whole then digits ++ zeros (whole - digits.length) ++ ['.', '0']
        else digits.take whole ++ '.' :: digits.drop whole
    else
      let fraction := if digits.length ≤ 1 then [] else '.' :: digits.drop 1
      let mark := if lead < 0 then '-' else '+'
      digits.take 1 ++ fraction ++ 'e' :: mark :: Nat.toDigits 10 lead.natAbs
  sign ++ String.ofList body

end Binary64

end EntityCatalog
