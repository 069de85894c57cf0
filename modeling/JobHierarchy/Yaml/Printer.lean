import JobHierarchy.Yaml.Meaning
import JobHierarchy.Yaml.ScalarText
/-!
# Writing YAML

A record of texts becomes a block mapping. A text is written plain where it reads back as itself,
else between single quotes; between double quotes where it holds a character that does not show;
and as a literal block where it has several lines. Words that older readers take for truth values
are quoted too.
-/

namespace JobHierarchy.Yaml.Printer

/-- How a text is written. -/
inductive Form where
  | plain
  | single
  | double
  | literal
  deriving DecidableEq, Repr

/-- Words that stood for truth values in earlier versions of the format. -/
def truthWords : List String := [
  "y", "Y", "yes", "Yes", "YES", "n", "N", "no", "No", "NO", "true", "True", "TRUE", "false",
  "False", "FALSE", "on", "On", "ON", "off", "Off", "OFF"]

/-- Characters that can be written as they are. -/
def isShown (c : Char) : Bool := isAllowed c && c != '\t' && c != '\r' && c.toNat != 0x85

/-- Characters that mean something at the start of a text. -/
def isIndicator (c : Char) : Bool := "#,[]\x7b\x7d&*!|>'\"%@\x60".toList.contains c

/-- A character that ends a word, or the end of the text. -/
def endsWord : Option Char → Bool
  | some c => isBlank c || isBreak c
  | none => true

/-- Written plain, the text would be read as something that is no string. -/
def readsAsOther (s : String) : Bool :=
  truthWords.contains s || isPaddedNumber s.toList
    || match plainMeaning s with
      | .string _ => false
      | _ => true

/-- A text that cannot be plain for what it begins with. -/
def startsBadly : List Char → Bool
  | [] => false
  | c :: rest =>
    ['-', '-', '-'].isPrefixOf (c :: rest) || ['.', '.', '.'].isPrefixOf (c :: rest)
      || isIndicator c
      || (['?', ':', '-'].contains c && endsWord rest.head?)

/-- A colon at the end of a word or a number sign at the start of one. -/
def hasMark : List Char → Bool
  | a :: b :: rest => (b = ':' && endsWord rest.head?) || (b = '#' && endsWord (some a))
    || hasMark (b :: rest)
  | _ => false

/-- A space next to a line break. -/
def hasLooseSpace (first second : Char → Bool) : List Char → Bool
  | a :: b :: rest => (first a && second b) || hasLooseSpace first second (b :: rest)
  | _ => false

def isSpace (c : Char) : Bool := c = ' '

def plainFits (cs : List Char) : Bool :=
  cs.all (fun c => isShown c && !isBreak c) && !startsBadly cs && !hasMark cs
    && !cs.head?.any isSpace && !cs.getLast?.any isSpace

def singleFits (cs : List Char) : Bool :=
  cs.all isShown && !hasLooseSpace isSpace isBreak cs && !hasLooseSpace isBreak isSpace cs

def literalFits (cs : List Char) : Bool :=
  cs.all isShown && !hasLooseSpace isSpace isBreak cs && !cs.getLast?.any isSpace

def form (s : String) : Form :=
  let cs := s.toList
  if cs.contains '\n' then if literalFits cs then .literal else .double
  else if !readsAsOther s && plainFits cs then .plain
  else if singleFits cs then .single
  else .double

/-- How deep the lines of a text stand. -/
def margin : List Char := [' ', ' ']

/-- The text with the margin in front of what follows a line break. -/
def indented (afterBreak : Bool) : List Char → List Char
  | [] => []
  | c :: rest =>
    if isBreak c then c :: indented true rest
    else (if afterBreak then margin else []) ++ c :: indented false rest

/-- The letter of an escape that is one letter. -/
def escapeLetter? (c : Char) : Option Char :=
  ['0', 'a', 'b', 't', 'n', 'v', 'f', 'r', 'e', '\x22', '\\', 'N', '_', 'L', 'P'].find? fun l =>
    escapeOf? l = some c

/-- The hexadecimal digits of a number, so many of them. -/
def hexDigits (count n : Nat) : List Char :=
  let digits := (Nat.toDigits 16 n).map Char.toUpper
  List.replicate (count - digits.length) '0' ++ digits

def escape (c : Char) : List Char :=
  if isShown c && !isBreak c && c != '\x22' && c != '\\' then [c]
  else match escapeLetter? c with
    | some letter => ['\\', letter]
    | none =>
      if c.toNat ≤ 0xFF then '\\' :: 'x' :: hexDigits 2 c.toNat
      else if c.toNat ≤ 0xFFFF then '\\' :: 'u' :: hexDigits 4 c.toNat
      else '\\' :: 'U' :: hexDigits 8 c.toNat

/-- What is said about a literal block in its first line: that it begins with white space, and what
becomes of the line breaks at its end. -/
def literalHeader (cs : List Char) : List Char :=
  let first := if cs.head?.any fun c => isSpace c || isBreak c then ['2'] else []
  let last := match cs.reverse with
    | [] => ['-']
    | [c] => if isBreak c then ['+'] else ['-']
    | c :: d :: _ => if !isBreak c then ['-'] else if isBreak d then ['+'] else []
  '|' :: first ++ last ++ ['\n']

/-- A text behind a key at the top of a document. -/
def scalar (s : String) : String :=
  let cs := s.toList
  match form s with
  | .plain => s
  | .single =>
    let quotes := cs.flatMap fun c => if c = '\'' then ['\'', '\''] else [c]
    let close := if cs.getLast?.any isBreak then margin else []
    String.ofList ('\'' :: indented false quotes ++ close ++ ['\''])
  | .double => String.ofList ('\x22' :: cs.flatMap escape ++ ['\x22'])
  | .literal => String.ofList (literalHeader cs ++ indented true cs)

/-- A field of a record; nothing is written as the null value. -/
def field (name : String) (value : Option String) : String :=
  let line := name ++ ": " ++ (value.map scalar).getD "null"
  if line.toList.getLast?.any isBreak then line else line ++ "\n"

/-- A record of fields. -/
def record (fields : List (String × Option String)) : String :=
  String.join (fields.map fun (name, value) => field name value)

end JobHierarchy.Yaml.Printer
