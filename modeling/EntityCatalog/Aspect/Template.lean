import EntityCatalog.Entity

/-!
# Link templates

A template is a text with placeholders in braces. A placeholder names the namespace (`ns`), the name
of the kind (`entity`), or one of the path segments of the kind. `Template.compile` refuses a text
whose braces do not pair or that names anything else, and `Template.expand?` fills in the parts of an
identifier.
-/

namespace EntityCatalog

/-- Why a template is refused. -/
inductive TemplateError where
  | unbalanced (link template : String)
  | unknownVariable (link name : String)
  deriving DecidableEq, Repr

def TemplateError.message : TemplateError → String
  | unbalanced link template => "Unbalanced braces in link '" ++ link ++ "': " ++ template
  | unknownVariable link name => "Unknown variable '" ++ name ++ "' in link '" ++ link ++ "'"

/-- A part of a template. -/
inductive TemplatePart where
  | literal (text : String)
  | ns
  | entity
  /-- The segment at a position. -/
  | path (position : Nat)
  deriving DecidableEq, Repr

namespace TemplatePart

/-- The part that a placeholder stands for. -/
def ofName? (kind : EntityKind) (name : String) : Option TemplatePart :=
  if name = "ns" then some ns
  else if name = "entity" then some entity
  else (kind.pathIndex? name).map path

def expand? (id : EntityId) : TemplatePart → Option String
  | literal text => some text
  | ns => some id.kind.ns
  | entity => some id.kind.name
  | path position => id.paths[position]?

end TemplatePart

structure Template where
  link : String
  parts : List TemplatePart
  deriving DecidableEq, Repr

namespace Template

/-- A stretch of text without braces, left out when it is empty. -/
def literal (cs : List Char) : List TemplatePart :=
  if cs.isEmpty then [] else [.literal (String.ofList cs)]

mutual

/-- The parts of a text; `before` is the literal text in front of it. -/
def outside (kind : EntityKind) (link template : String) (before : List Char) :
    List Char → Except TemplateError (List TemplatePart)
  | [] => .ok (literal before)
  | c :: cs =>
    if c = '\x7b' then inside kind link template before [] cs
    else if c = '\x7d' then .error (.unbalanced link template)
    else outside kind link template (before ++ [c]) cs

/-- The parts of a text that goes on with the rest of a placeholder; `name` is what stands in front of
that rest. -/
def inside (kind : EntityKind) (link template : String) (before name : List Char) :
    List Char → Except TemplateError (List TemplatePart)
  | [] => .error (.unbalanced link template)
  | c :: cs =>
    if c = '\x7b' then .error (.unbalanced link template)
    else if c = '\x7d' then
      match TemplatePart.ofName? kind (String.ofList name) with
      | none => .error (.unknownVariable link (String.ofList name))
      | some part => do
        let parts ← outside kind link template [] cs
        return literal before ++ part :: parts
    else inside kind link template before (name ++ [c]) cs

end

def compile (kind : EntityKind) (link template : String) : Except TemplateError Template := do
  return ⟨link, ← outside kind link template [] template.toList⟩

/-- The templates of all links of a kind, in ascending order of their names. -/
def compileAll (kind : EntityKind) : Except TemplateError (List Template) :=
  kind.links.entries.mapM fun (link, template) => compile kind link template

/-- The text for an identifier, if it has every segment that the template names. -/
def expand? (t : Template) (id : EntityId) : Option String :=
  (t.parts.mapM (TemplatePart.expand? id)).map String.join

/-- Set the links of an entity. -/
def apply (templates : List Template) (e : Entity) : Entity :=
  templates.foldl (fun e t => match t.expand? e.id with
    | some uri => { e with links := e.links.insert t.link uri }
    | none => e) e

end Template

end EntityCatalog
