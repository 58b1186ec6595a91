import EntityCatalog.Aspect.Remote
import EntityCatalog.Proofs.Text.Blank

/-!
# Endpoints in normal form

Blanks are cut off both ends of an endpoint, then slashes off its end, and nothing more after that. A blank in
front of these slashes is left at the end, in front of the slash of every URL. Apart from that, what is left is
a clean base: exactly the endpoints without such a blank are brought into normal form in one step, the same for
all endpoints that differ only in blanks and slashes (`Endpoint.clean_unless_stray`).
-/

namespace EntityCatalog

open Text (isBlank)

namespace Endpoint

/-! ## What is cut off -/

/-- An endpoint consists of slashes, with blanks around them. -/
def SlashesAlone (endpoint : String) : Prop :=
  ∃ before slashes after, endpoint.toList = before ++ slashes ++ after ∧ (∀ c ∈ before, isBlank c = true) ∧
    (∀ c ∈ slashes, c = '/') ∧ ∀ c ∈ after, isBlank c = true

/-- A blank stands in front of the slashes at the end of an endpoint, and not only blanks in front of it. -/
def StrayBlank (endpoint : String) : Prop :=
  ∃ front blank slashes after, endpoint.toList = front ++ [blank] ++ slashes ++ after ∧
    (∃ c ∈ front, isBlank c = false) ∧ isBlank blank = true ∧ slashes ≠ [] ∧ (∀ c ∈ slashes, c = '/') ∧
    ∀ c ∈ after, isBlank c = true

/-- An endpoint is a part with blanks in front of it, and blanks and slashes behind it. -/
def Pads (part : List Char) (endpoint : String) : Prop :=
  ∃ before after, endpoint.toList = before ++ part ++ after ∧ (∀ c ∈ before, isBlank c = true) ∧
    ∀ c ∈ after, isBlank c = true ∨ c = '/'

/-- Endpoints differ only in blanks around them and in blanks and slashes at their ends. -/
def Alike (endpoint other : String) : Prop := ∃ part, Pads part endpoint ∧ Pads part other

/-- What stands behind a scheme. -/
def mark : List Char := "://".toList

/-- What is put in front of an endpoint without a scheme. -/
def http : List Char := "http://".toList

/-- A base to which routes can be appended behind a slash. -/
structure Clean (base : String) : Prop where
  scheme : mark <:+: base.toList
  first : ∀ c ∈ base.toList.head?, isBlank c = false
  last : ∀ c ∈ base.toList.getLast?, isBlank c = false
  stop : ∀ c ∈ base.toList.getLast?, c ≠ '/'

/-- What is left of an endpoint. -/
def body (endpoint : String) : List Char := Text.dropEndWhile (· = '/') (Text.trim endpoint.toList)

/-- What would be left if blanks and slashes were cut off the end in any mixture. -/
def core (endpoint : String) : List Char :=
  Text.dropEndWhile (fun c => isBlank c || c = '/') (endpoint.toList.dropWhile isBlank)

/-- A text is taken apart into blanks, what is left of it, slashes and blanks. -/
structure Parts (cs before left slashes after : List Char) : Prop where
  join : cs = before ++ (left ++ slashes) ++ after
  before_blank : ∀ c ∈ before, isBlank c = true
  slashes_alone : ∀ c ∈ slashes, c = '/'
  after_blank : ∀ c ∈ after, isBlank c = true
  first : ∀ c ∈ (left ++ slashes).head?, isBlank c = false
  last : ∀ c ∈ (left ++ slashes).getLast?, isBlank c = false
  stop : ∀ c ∈ left.getLast?, c ≠ '/'

variable {e e' : String} {left : List Char}

theorem slash_not_blank : isBlank '/' = false := rfl

theorem body_eq_iff : body e = left ↔ ∃ before slashes after, Parts e.toList before left slashes after := by
  rw [body, Text.dropEndWhile_eq_iff]
  constructor
  · rintro ⟨⟨slashes, htrim, hslashes⟩, hstop⟩
    obtain ⟨before, after, hjoin, hbefore, hafter, hfirst, hlast⟩ := Text.trim_eq_iff.1 htrim
    exact ⟨before, slashes, after, hjoin, hbefore, by simpa using hslashes, hafter, hfirst, hlast,
      by simpa using hstop⟩
  · rintro ⟨before, slashes, after, h⟩
    have htrim : Text.trim e.toList = left ++ slashes :=
      Text.trim_eq_iff.2 ⟨before, after, h.join, h.before_blank, h.after_blank, h.first, h.last⟩
    exact ⟨⟨slashes, htrim, by simpa using h.slashes_alone⟩, by simpa using h.stop⟩

theorem exists_parts (e : String) : ∃ before slashes after, Parts e.toList before (body e) slashes after :=
  body_eq_iff.1 rfl

theorem first_body : ∀ c ∈ (body e).head?, isBlank c = false := by
  intro c hc
  obtain ⟨before, slashes, after, h⟩ := exists_parts e
  exact h.first c (List.mem_head?_append_of_mem_head? hc)

theorem body_prefix (hfirst : ∀ c ∈ e.toList.head?, isBlank c = false) : body e <+: e.toList := by
  obtain ⟨before, slashes, after, h⟩ := exists_parts e
  cases before with
  | nil => exact ⟨slashes ++ after, by rw [h.join, List.nil_append, List.append_assoc]⟩
  | cons c before =>
    have hc := hfirst c (by rw [h.join]; rfl)
    rw [h.before_blank c List.mem_cons_self] at hc
    cases hc

theorem stop_body : ∀ c ∈ (body e).getLast?, c ≠ '/' := by
  obtain ⟨before, slashes, after, h⟩ := exists_parts e
  exact h.stop

theorem body_of_clean (hfirst : ∀ c ∈ e.toList.head?, isBlank c = false)
    (hlast : ∀ c ∈ e.toList.getLast?, isBlank c = false) (hstop : ∀ c ∈ e.toList.getLast?, c ≠ '/') :
    body e = e.toList := by
  refine body_eq_iff.2 ⟨[], [], [], ?_, by simp, by simp, by simp, ?_, ?_, hstop⟩
  · rw [List.append_nil, List.append_nil, List.nil_append]
  · rwa [List.append_nil]
  · rwa [List.append_nil]

theorem body_eq_nil_iff : body e = [] ↔ SlashesAlone e := by
  rw [body_eq_iff]
  constructor
  · rintro ⟨before, slashes, after, h⟩
    exact ⟨before, slashes, after, h.join, h.before_blank, h.slashes_alone, h.after_blank⟩
  · rintro ⟨before, slashes, after, hjoin, hbefore, hslashes, hafter⟩
    refine ⟨before, slashes, after, hjoin, hbefore, hslashes, hafter, fun c hc => ?_, fun c hc => ?_, by simp⟩
    · rw [hslashes c (List.mem_of_mem_head? hc), slash_not_blank]
    · rw [hslashes c (List.mem_of_mem_getLast? hc), slash_not_blank]

/-! ## Stray blanks -/

theorem Parts.slashes_ne_nil {cs before slashes after : List Char} {c : Char}
    (h : Parts cs before left slashes after) (hc : c ∈ left.getLast?) (hblank : isBlank c = true) :
    slashes ≠ [] := by
  rintro rfl
  have hlast := h.last c (by rwa [List.append_nil])
  simp [hblank] at hlast

theorem stray_of_body {c : Char} (hc : c ∈ (body e).getLast?) (hblank : isBlank c = true) : StrayBlank e := by
  obtain ⟨before, slashes, after, h⟩ := exists_parts e
  have hslashes : slashes ≠ [] := h.slashes_ne_nil hc hblank
  obtain ⟨front, hfront⟩ := List.getLast?_eq_some_iff.1 hc
  cases front with
  | nil =>
    have hfirst := first_body c (by rw [hfront]; rfl)
    simp [hblank] at hfirst
  | cons d front =>
    have hd : isBlank d = false := first_body d (by rw [hfront]; rfl)
    refine ⟨before ++ d :: front, c, slashes, after, ?_, ⟨d, by simp, hd⟩, hblank, hslashes, h.slashes_alone,
      h.after_blank⟩
    rw [h.join, hfront]
    simp

theorem body_of_stray (h : StrayBlank e) : ∃ c ∈ (body e).getLast?, isBlank c = true := by
  obtain ⟨front, blank, slashes, after, hjoin, ⟨c, hc, hne⟩, hblank, hsome, hslashes, hafter⟩ := h
  have hrest : front.dropWhile isBlank ≠ [] := by
    rw [Ne, List.dropWhile_eq_nil_iff]
    intro hall
    simp [hall c hc] at hne
  have hbody : body e = front.dropWhile isBlank ++ [blank] := by
    refine body_eq_iff.2 ⟨front.takeWhile isBlank, slashes, after, ?_, fun c => List.mem_takeWhile_imp,
      hslashes, hafter, ?_, ?_, ?_⟩
    · rw [hjoin, ← List.append_assoc, ← List.append_assoc, List.takeWhile_append_dropWhile]
    · rw [List.append_assoc, List.head?_append_of_ne_nil _ hrest]
      exact (Text.dropWhile_eq_iff.1 rfl).2
    · rw [List.getLast?_append_of_ne_nil _ hsome]
      intro c hc
      rw [hslashes c (List.mem_of_mem_getLast? hc), slash_not_blank]
    · rintro c hc rfl
      rw [List.getLast?_concat] at hc
      cases hc
      cases hblank
  exact ⟨blank, by rw [hbody, List.getLast?_concat]; rfl, hblank⟩

theorem strayBlank_iff : StrayBlank e ↔ ∃ c ∈ (body e).getLast?, isBlank c = true :=
  ⟨body_of_stray, fun ⟨_, hc, hblank⟩ => stray_of_body hc hblank⟩

theorem not_strayBlank_iff : ¬ StrayBlank e ↔ ∀ c ∈ (body e).getLast?, isBlank c = false := by
  rw [strayBlank_iff]
  simp

theorem StrayBlank.length_body (h : StrayBlank e) : (body e).length < e.toList.length := by
  obtain ⟨c, hc, hblank⟩ := body_of_stray h
  obtain ⟨before, slashes, after, hp⟩ := exists_parts e
  have hslashes := List.length_pos_iff.2 (hp.slashes_ne_nil hc hblank)
  rw [hp.join]
  simp only [List.length_append]
  omega

/-! ## Alike endpoints -/

theorem core_eq_iff : core e = left ↔
    ∃ before after, e.toList = before ++ left ++ after ∧ (∀ c ∈ before, isBlank c = true) ∧
      (∀ c ∈ after, isBlank c = true ∨ c = '/') ∧ (∀ c ∈ left.head?, isBlank c = false) ∧
      ∀ c ∈ left.getLast?, isBlank c = false ∧ c ≠ '/' := by
  rw [core, Text.cut_eq_iff fun c hc => by simp [hc]]
  simp

theorem core_eq_nil_iff : core e = [] ↔ ∀ c ∈ e.toList, isBlank c = true ∨ c = '/' := by
  rw [core_eq_iff]
  constructor
  · rintro ⟨before, after, hjoin, hbefore, hafter, -⟩ c hc
    rw [hjoin, List.append_nil] at hc
    exact (List.mem_append.1 hc).elim (.inl ∘ hbefore c) (hafter c)
  · intro h
    exact ⟨[], e.toList, rfl, by simp, h, by simp, by simp⟩

theorem core_of_not_stray (h : ¬ StrayBlank e) : core e = body e := by
  obtain ⟨before, slashes, after, hp⟩ := exists_parts e
  refine core_eq_iff.2 ⟨before, slashes ++ after, ?_, hp.before_blank, fun c hc => ?_, first_body,
    fun c hc => ?_⟩
  · rw [hp.join, List.append_assoc, List.append_assoc, List.append_assoc]
  · exact (List.mem_append.1 hc).elim (.inr ∘ hp.slashes_alone c) (.inl ∘ hp.after_blank c)
  · exact ⟨not_strayBlank_iff.1 h c hc, stop_body c hc⟩

theorem pads_core (e : String) : Pads (core e) e := by
  obtain ⟨before, after, hjoin, hbefore, hafter, -⟩ := core_eq_iff.1 (rfl : core e = _)
  exact ⟨before, after, hjoin, hbefore, hafter⟩

theorem alike_core (e : String) : Alike e (String.ofList (core e)) :=
  ⟨core e, pads_core e, [], [], by simp, by simp, by simp⟩

theorem core_of_pads {part : List Char} (h : Pads part e) : core e = core (String.ofList part) := by
  obtain ⟨before, after, hjoin, hbefore, hafter⟩ := h
  obtain ⟨front, rest, hpart, hfront, hrest, hends⟩ := core_eq_iff.1 (rfl : core (String.ofList part) = _)
  rw [String.toList_ofList] at hpart
  refine core_eq_iff.2 ⟨before ++ front, rest ++ after, ?_, fun c hc => ?_, fun c hc => ?_, hends⟩
  · rw [hjoin]
    nth_rewrite 1 [hpart]
    simp
  · exact (List.mem_append.1 hc).elim (hbefore c) (hfront c)
  · exact (List.mem_append.1 hc).elim (hrest c) (hafter c)

theorem core_congr (h : Alike e e') : core e = core e' := by
  obtain ⟨part, he, he'⟩ := h
  rw [core_of_pads he, core_of_pads he']

theorem body_core (e : String) : body (String.ofList (core e)) = core e := by
  obtain ⟨-, -, -, -, -, hfirst, hlast⟩ := core_eq_iff.1 (rfl : core e = _)
  have h := body_of_clean (e := String.ofList (core e))
  rw [String.toList_ofList] at h
  exact h hfirst (fun c hc => (hlast c hc).1) fun c hc => (hlast c hc).2

theorem not_stray_core (e : String) : ¬ StrayBlank (String.ofList (core e)) := by
  obtain ⟨-, -, -, -, -, -, hlast⟩ := core_eq_iff.1 (rfl : core e = _)
  rw [not_strayBlank_iff, body_core]
  exact fun c hc => (hlast c hc).1

/-! ## Normal forms -/

theorem mark_infix_http : mark <:+: http := ⟨"http".toList, [], rfl⟩

theorem http_not_blank : ∀ c ∈ http, isBlank c = false := by
  have hall : http.all (isBlank · == false) = true := by decide
  simpa using hall

theorem toList_normalize (e : String) : (normalizeEndpoint e).toList =
    if body e = [] ∨ mark <:+: body e then body e else http ++ body e := by
  have hiff : ((body e).isEmpty || Text.occursIn mark (body e)) = true ↔ body e = [] ∨ mark <:+: body e := by
    rw [Bool.or_eq_true, List.isEmpty_iff, Text.occursIn_iff]
  by_cases h : body e = [] ∨ mark <:+: body e
  · rw [if_pos h, normalizeEndpoint]
    exact (congrArg String.toList (if_pos (hiff.2 h))).trans String.toList_ofList
  · rw [if_neg h, normalizeEndpoint]
    exact (congrArg String.toList (if_neg (mt hiff.1 h))).trans <|
      String.toList_append.trans (congrArg _ String.toList_ofList)

theorem normalize_congr (h : body e = body e') : normalizeEndpoint e = normalizeEndpoint e' := by
  rw [← String.toList_inj, toList_normalize, toList_normalize, h]

theorem normalize_eq_empty_iff : normalizeEndpoint e = "" ↔ body e = [] := by
  rw [← String.toList_inj, toList_normalize]
  split
  · rfl
  next h =>
    refine iff_of_false (fun hnil => ?_) fun hb => h (.inl hb)
    exact h (.inl (List.append_eq_nil_iff.1 hnil).2)

theorem getLast?_normalize (e : String) : (normalizeEndpoint e).toList.getLast? = (body e).getLast? := by
  rw [toList_normalize]
  split
  · rfl
  next h => exact List.getLast?_append_of_ne_nil _ fun hb => h (.inl hb)

theorem first_normalize : ∀ c ∈ (normalizeEndpoint e).toList.head?, isBlank c = false := by
  rw [toList_normalize]
  split
  · exact first_body
  · intro c hc
    cases hc
    rfl

theorem scheme_normalize (h : body e ≠ []) : mark <:+: (normalizeEndpoint e).toList := by
  rw [toList_normalize]
  split
  next hs => exact hs.resolve_left h
  next => exact mark_infix_http.trans (List.prefix_append _ _).isInfix

theorem strayBlank_iff_normalize :
    StrayBlank e ↔ ∃ c ∈ (normalizeEndpoint e).toList.getLast?, isBlank c = true := by
  rw [getLast?_normalize, strayBlank_iff]

theorem clean_normalize_iff : normalizeEndpoint e = "" ∨ Clean (normalizeEndpoint e) ↔ ¬ StrayBlank e := by
  constructor
  · rw [strayBlank_iff_normalize]
    rintro (hnil | hclean) ⟨c, hc, hblank⟩
    · rw [hnil] at hc
      cases hc
    · rw [hclean.last c hc] at hblank
      cases hblank
  · intro h
    refine (eq_or_ne (body e) []).imp normalize_eq_empty_iff.2 fun hb => ?_
    refine ⟨scheme_normalize hb, first_normalize, ?_, ?_⟩
    · rw [getLast?_normalize]
      exact not_strayBlank_iff.1 h
    · rw [getLast?_normalize]
      exact stop_body

/-- An endpoint that is left as it is has no stray blank. Where `http` is put in front, what is left would
start as the endpoint does, with `http`, or be shorter than `http`, in which there is no blank. -/
theorem not_stray_of_normal (h : normalizeEndpoint e = e) : ¬ StrayBlank e := by
  intro hs
  have hnormal := toList_normalize e
  rw [h] at hnormal
  split at hnormal
  next =>
    have hlt := hs.length_body
    rw [← hnormal] at hlt
    exact lt_irrefl _ hlt
  next hmark =>
    have hbody : body e <+: e.toList := body_prefix (h ▸ first_normalize)
    rcases List.prefix_or_prefix_of_prefix hbody ⟨body e, hnormal.symm⟩ with hshort | hlong
    · obtain ⟨c, hc, hblank⟩ := body_of_stray hs
      rw [http_not_blank c (hshort.subset (List.mem_of_mem_getLast? hc))] at hblank
      cases hblank
    · exact hmark (.inr (mark_infix_http.trans hlong.isInfix))

theorem normalize_eq_self_iff : normalizeEndpoint e = e ↔ e = "" ∨ Clean e := by
  constructor
  · intro h
    have hstray := not_stray_of_normal h
    rwa [← clean_normalize_iff, h] at hstray
  · rintro (rfl | hclean)
    · rfl
    · have hbody : body e = e.toList := body_of_clean hclean.first hclean.last hclean.stop
      rw [← String.toList_inj, toList_normalize, hbody, if_pos (.inr hclean.scheme)]

theorem idempotent_iff : normalizeEndpoint (normalizeEndpoint e) = normalizeEndpoint e ↔ ¬ StrayBlank e := by
  rw [normalize_eq_self_iff, clean_normalize_iff]

/-- The endpoint without a stray blank that differs least shows that it is only the blank that keeps
alike endpoints apart. -/
theorem alike_iff :
    (∀ e', Alike e e' → ¬ StrayBlank e' → normalizeEndpoint e = normalizeEndpoint e') ↔ ¬ StrayBlank e := by
  constructor
  · intro h
    have hcore := h _ (alike_core e) (not_stray_core e)
    rw [strayBlank_iff_normalize, hcore, ← strayBlank_iff_normalize]
    exact not_stray_core e
  · intro h e' halike h'
    refine normalize_congr ?_
    rw [← core_of_not_stray h, ← core_of_not_stray h', core_congr halike]

/-! ## Remotes -/

theorem ofEndpoint_error_iff {fault : AspectError} :
    Remote.ofEndpoint e = .error fault ↔ fault = .remote .emptyEndpoint ∧ SlashesAlone e := by
  rw [Remote.ofEndpoint, ← body_eq_nil_iff, ← normalize_eq_empty_iff]
  split
  next h => simp [h, eq_comm]
  next h => simp [h]

theorem ofEndpoint_ok {r : Remote} (h : Remote.ofEndpoint e = .ok r) :
    r.endpoint = normalizeEndpoint e ∧ normalizeEndpoint e ≠ "" := by
  rw [Remote.ofEndpoint] at h
  split at h
  next => cases h
  next hne =>
    cases h
    exact ⟨rfl, hne⟩

/-- The character in front of the slash of every URL. -/
theorem url_join {r : Remote} (h : Remote.ofEndpoint e = .ok r) :
    ∃ front c, (∀ route, (r.url route).toList = front ++ c :: '/' :: route.toList) ∧ c ≠ '/' ∧
      (isBlank c = true ↔ StrayBlank e) := by
  obtain ⟨hr, hne⟩ := ofEndpoint_ok h
  rcases List.eq_nil_or_concat' (normalizeEndpoint e).toList with hnil | ⟨front, c, hlast⟩
  · exact absurd (String.toList_inj.1 hnil) hne
  · have hc : (normalizeEndpoint e).toList.getLast? = some c := by rw [hlast, List.getLast?_concat]
    refine ⟨front, c, fun route => ?_, ?_, ?_⟩
    · rw [Remote.url, String.toList_append, String.toList_append, hr, hlast]
      simp
    · exact stop_body c (getLast?_normalize e ▸ hc)
    · rw [strayBlank_iff_normalize, hc]
      simp

/-- **An endpoint becomes a clean base, unless it has a stray blank.** Exactly endpoints of slashes alone are
rejected. Every other one becomes a base with a scheme, without a blank at its front or a slash at its end. If
no blank stands in front of the slashes at the end of an endpoint, its base is clean and stays as it is when it
is brought into normal form again, all alike endpoints have the same, and only those of blanks and slashes have
none. With such a blank, the base is neither clean nor final, an alike endpoint has another, and the blank
stands in front of the slash of every URL. -/
theorem clean_unless_stray (e : String) :
    (normalizeEndpoint e = "" ↔ SlashesAlone e) ∧
    (∀ fault, Remote.ofEndpoint e = .error fault ↔ fault = .remote .emptyEndpoint ∧ SlashesAlone e) ∧
    (¬ SlashesAlone e → mark <:+: (normalizeEndpoint e).toList) ∧
    (∀ c ∈ (normalizeEndpoint e).toList.head?, isBlank c = false) ∧
    (∀ c ∈ (normalizeEndpoint e).toList.getLast?, c ≠ '/' ∧ (isBlank c = true ↔ StrayBlank e)) ∧
    (normalizeEndpoint e = "" ∨ Clean (normalizeEndpoint e) ↔ ¬ StrayBlank e) ∧
    (normalizeEndpoint (normalizeEndpoint e) = normalizeEndpoint e ↔ ¬ StrayBlank e) ∧
    ((∀ e', Alike e e' → ¬ StrayBlank e' → normalizeEndpoint e = normalizeEndpoint e') ↔ ¬ StrayBlank e) ∧
    (¬ StrayBlank e → (normalizeEndpoint e = "" ↔ ∀ c ∈ e.toList, isBlank c = true ∨ c = '/')) ∧
    (∀ r, Remote.ofEndpoint e = .ok r → r.endpoint = normalizeEndpoint e ∧
      ∃ front c, (∀ route, (r.url route).toList = front ++ c :: '/' :: route.toList) ∧ c ≠ '/' ∧
        (isBlank c = true ↔ StrayBlank e)) := by
  refine ⟨?_, fun fault => ofEndpoint_error_iff, fun h => ?_, first_normalize, fun c hc => ⟨?_, ?_⟩,
    clean_normalize_iff, idempotent_iff, alike_iff, fun h => ?_,
    fun r hr => ⟨(ofEndpoint_ok hr).1, url_join hr⟩⟩
  · rw [normalize_eq_empty_iff, body_eq_nil_iff]
  · exact scheme_normalize (mt body_eq_nil_iff.1 h)
  · exact stop_body c (getLast?_normalize e ▸ hc)
  · rw [strayBlank_iff_normalize, hc]
    simp
  · rw [normalize_eq_empty_iff, ← core_of_not_stray h, core_eq_nil_iff]

/-- An endpoint with blanks around it, without a scheme and with a slash, and the same without the slash. -/
theorem clean_unless_stray_local :
    ¬ SlashesAlone " localhost:7070/ " ∧ ¬ StrayBlank " localhost:7070/ " ∧ Clean "http://localhost:7070" ∧
      normalizeEndpoint "http://localhost:7070" = "http://localhost:7070" ∧
      normalizeEndpoint "localhost:7070" = "http://localhost:7070" ∧
      (∃ c ∈ " localhost:7070/ ".toList, isBlank c = false ∧ c ≠ '/') ∧
      ∃ r front c, Remote.ofEndpoint " localhost:7070/ " = .ok r ∧
        (r.url "get").toList = front ++ c :: '/' :: "get".toList ∧ c ≠ '/' ∧ isBlank c = false := by
  obtain ⟨hempty, -, -, -, -, hclean, htwice, halike, hblank, hremote⟩ := clean_unless_stray " localhost:7070/ "
  have hnormal : normalizeEndpoint " localhost:7070/ " = "http://localhost:7070" := by decide
  have hsome : ¬ SlashesAlone " localhost:7070/ " := by
    rw [← hempty, hnormal]
    decide
  have hstray : ¬ StrayBlank " localhost:7070/ " := by
    rw [← htwice, hnormal]
    decide
  have hlocal : Alike " localhost:7070/ " "localhost:7070" :=
    ⟨"localhost:7070".toList, ⟨[' '], ['/', ' '], rfl, by simp [isBlank], by simp [isBlank]⟩,
      ⟨[], [], rfl, by simp, by simp⟩⟩
  have hlocal' : ¬ StrayBlank "localhost:7070" := by
    rw [← (clean_unless_stray "localhost:7070").2.2.2.2.2.2.1]
    decide
  obtain ⟨-, front, c, hjoin, hslash, hc⟩ := hremote _ rfl
  rw [hnormal] at hclean halike hblank
  refine ⟨hsome, hstray, (hclean.2 hstray).resolve_left (by decide), by decide,
    (halike.2 hstray _ hlocal hlocal').symm, ?_, _, front, c, rfl, hjoin "get", hslash, ?_⟩
  · have hne := mt (hblank hstray).2 (by decide)
    simpa only [not_forall, not_or, Bool.not_eq_true, exists_prop] using hne
  · rw [← Bool.not_eq_true, hc]
    exact hstray

/-- Such blanks are kept: an endpoint of blanks and slashes is no endpoint of slashes alone, and alike endpoints
are told apart until their normal forms are brought into normal form again. -/
theorem stray_blank_kept :
    normalizeEndpoint "/ /" = "http:/// " ∧ (∀ c ∈ "/ /".toList, isBlank c = true ∨ c = '/') ∧
      normalizeEndpoint "h /" = "http://h " ∧ normalizeEndpoint "http://h " = "http://h" ∧
      Alike "h /" "h" ∧ normalizeEndpoint "h" = "http://h" := by
  refine ⟨by decide, by simp [isBlank], by decide, by decide, ⟨['h'], ?_, ?_⟩, by decide⟩
  · exact ⟨[], [' ', '/'], by decide, by simp, by simp [isBlank]⟩
  · exact ⟨[], [], by decide, by simp, by simp⟩

end Endpoint

end EntityCatalog
