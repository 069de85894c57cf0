import JobHierarchy.Template.Kind
import JobHierarchy.Text.Split
/-!
# Filling in placeholders

A placeholder is a key between two opening and two closing braces. `substitute` reads the template
once from left to right, so a value that was put in is never read again. Braces around anything but
a known key stay as they are, and reading goes on right behind the opening ones.
-/

namespace JobHierarchy

/-- Placeholder values by key. -/
abbrev TemplateParams := List (String × String)

namespace TemplateParams

def get? (params : TemplateParams) (key : String) : Option String :=
  params.lookup key

/-- The value of `key` becomes `value`. -/
def set (params : TemplateParams) (key value : String) : TemplateParams :=
  (params.filter fun p => p.1 != key) ++ [(key, value)]

/-- The last value given for a key counts. -/
def ofList (pairs : List (String × String)) : TemplateParams :=
  pairs.foldl (fun params p => params.set p.1 p.2) []

/-- The parameters that hold only the kind's primary one. -/
def primary (kind : TemplateKind) (value : String) : TemplateParams :=
  match kind.primaryParam? with
  | some key => [(key, value)]
  | none => []

end TemplateParams

def openBraces : List Char := ['\x7b', '\x7b']

def closeBraces : List Char := ['\x7d', '\x7d']

/-- The placeholder that `cs` begins with, after its opening braces: its value and what follows. -/
def placeholder? (params : TemplateParams) (cs : List Char) :
    Option (List Char × { rest : List Char // rest.length ≤ cs.length }) :=
  match h : Text.cutAt? closeBraces cs with
  | none => none
  | some (key, rest) =>
    (params.get? (String.ofList key)).map fun value =>
      (value.toList, ⟨rest, Text.length_cutAt?_le h⟩)

/-- `substitute` on characters. -/
def substituteChars (params : TemplateParams) : List Char → List Char
  | [] => []
  | '\x7b' :: '\x7b' :: cs =>
    match placeholder? params cs with
    | some (value, ⟨rest, _⟩) => value ++ substituteChars params rest
    | none => '\x7b' :: '\x7b' :: substituteChars params cs
  | c :: cs => c :: substituteChars params cs
termination_by cs => cs.length
decreasing_by all_goals simp +arith; try omega

/-- The template with the value in place of each placeholder that has one. -/
def substitute (template : String) (params : TemplateParams) : String :=
  String.ofList (substituteChars params template.toList)

end JobHierarchy
