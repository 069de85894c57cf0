import JobHierarchy.Text.Number
import JobHierarchy.Yaml.Cursor
/-!
# The text of YAML scalars

Plain and quoted scalars run over several lines: blanks around a line break are dropped, and a
single break becomes a space. Block scalars keep their lines, below their indentation. The readers
take the cursor behind the opening mark and give the text and the cursor behind the closing one;
they give nothing where the scalar is not well formed.
-/

namespace JobHierarchy.Yaml

/-- White space between two parts of a scalar. -/
structure Gap where
  blanks : List Char
  /-- The first line break; none if it was escaped. -/
  first : List Char
  others : List Char
  crossesLine : Bool
  deriving Repr

namespace Gap

def none : Gap := ⟨[], [], [], false⟩

/-- A gap that begins with an escaped line break. -/
def escaped : Gap := ⟨[], [], [], true⟩

/-- What a gap puts between the parts. -/
def text (g : Gap) : List Char :=
  if !g.crossesLine then g.blanks
  else if g.first = ['\n'] then if g.others = [] then [' '] else g.others
  else g.first ++ g.others

/-- Reads on in a gap. A tab in the indentation of a line, below `indent` columns, is refused. -/
def read? (indent : Nat) : (fuel : Nat) → Gap → Cursor → Option (Gap × Cursor)
  | 0, g, c => some (g, c)
  | fuel + 1, g, c =>
    match c.next? with
    | Option.none => some (g, c)
    | some ch =>
      if isBlank ch then
        if g.crossesLine then
          if ch = '\t' && c.column < indent then Option.none
          else read? indent fuel g (c.skip 1)
        else read? indent fuel { g with blanks := g.blanks ++ [ch] } (c.skip 1)
      else
        match c.lineBreak? with
        | some (shown, after) =>
          if g.crossesLine then
            read? indent fuel { g with others := g.others ++ [shown] } after
          else read? indent fuel ⟨[], [shown], [], true⟩ after
        | Option.none => some (g, c)

end Gap

/-! ## Plain scalars -/

/-- Characters that end a plain scalar in a flow collection. -/
def isFlowMark (c : Char) : Bool := c = ',' || c = '[' || c = ']' || c = '\x7b' || c = '\x7d'

/-- The characters up to the next white space or to the end of the scalar. In a flow collection, a
colon right before a mark is refused. -/
def plainPart? (flow : Bool) : (fuel : Nat) → Cursor → (done : List Char) →
    Option (List Char × Cursor)
  | 0, c, done => some (done.reverse, c)
  | fuel + 1, c, done =>
    match c.next? with
    | none => some (done.reverse, c)
    | some ch =>
      if isBlank ch || isBreak ch then some (done.reverse, c)
      else if ch = ':' && c.endsAt 1 then some (done.reverse, c)
      else if flow && ch = ':' && ((c.ahead? 1).any fun n => isFlowMark n || n = '?') then none
      else if flow && isFlowMark ch then some (done.reverse, c)
      else plainPart? flow fuel (c.skip 1) (ch :: done)

/-- The parts of a plain scalar from the first on, after the text and the gap before it. The last
gap tells whether the scalar was followed by a line break. -/
def plainParts? (flow : Bool) (indent : Nat) : (fuel : Nat) → Cursor → (text : List Char) → Gap →
    Option (List Char × Gap × Cursor)
  | 0, c, text, gap => some (text, gap, c)
  | fuel + 1, c, text, gap =>
    if c.atDocumentEdge || c.next? = some '#' then some (text, gap, c)
    else do
      let (part, c) ← plainPart? flow (c.rest.length + 1) c []
      let (text, gap) := if part = [] then (text, gap) else (text ++ gap.text ++ part, Gap.none)
      match c.next? with
      | none => return (text, gap, c)
      | some ch =>
        if isBlank ch || isBreak ch then
          let (gap, c) ← gap.read? indent (c.rest.length + 1) c
          if !flow && c.column < indent then return (text, gap, c)
          else plainParts? flow indent fuel c text gap
        else return (text, gap, c)

/-! ## Quoted scalars -/

/-- The character of an escape that is one letter. -/
def escapeOf? : Char → Option Char
  | '0' => some (Char.ofNat 0)
  | 'a' => some '\x07'
  | 'b' => some '\x08'
  | 't' | '\t' => some '\t'
  | 'n' => some '\n'
  | 'v' => some '\x0b'
  | 'f' => some '\x0c'
  | 'r' => some '\r'
  | 'e' => some '\x1b'
  | ' ' => some ' '
  | '\x22' => some '\x22'
  | '/' => some '/'
  | '\\' => some '\\'
  | 'N' => some '\u0085'
  | '_' => some '\u00a0'
  | 'L' => some '\u2028'
  | 'P' => some '\u2029'
  | _ => none

/-- How many digits follow the letter of an escape. -/
def escapeDigits? : Char → Option Nat
  | 'x' => some 2
  | 'u' => some 4
  | 'U' => some 8
  | _ => none

/-- The escape after a backslash. -/
def escape? (c : Cursor) : Option (Char × Cursor) := do
  let letter ← c.next?
  match escapeOf? letter with
  | some ch => return (ch, c.skip 1)
  | none =>
    let count ← escapeDigits? letter
    let digits := (c.rest.drop 1).take count
    if digits.length < count then none
    let values ← digits.mapM (Text.digitValue 16)
    let n := values.foldl (fun n d => n * 16 + d) 0
    if n < 0xD800 || (0xDFFF < n && n < 0x110000) then
      return (Char.ofNat n, c.skip (count + 1))
    else none

/-- The characters up to the next white space, to an escaped line break or to the closing quote. The
gap is the escaped break, if there was one. -/
def quotedPart? (quote : Char) : (fuel : Nat) → Cursor → (done : List Char) →
    Option (List Char × Gap × Cursor)
  | 0, _, _ => none
  | fuel + 1, c, done =>
    match c.rest with
    | [] => some (done.reverse, .none, c)
    | ch :: rest =>
      if isBlank ch || isBreak ch then some (done.reverse, .none, c)
      else if ch = quote then
        if quote = '\'' && rest.head? = some '\'' then
          quotedPart? quote fuel (c.skip 2) ('\'' :: done)
        else some (done.reverse, .none, c)
      else if ch = '\\' && quote = '\x22' then
        match (c.skip 1).lineBreak? with
        | some (_, after) => some (done.reverse, .escaped, after)
        | none =>
          match escape? (c.skip 1) with
          | some (e, after) => quotedPart? quote fuel after (e :: done)
          | none => none
      else quotedPart? quote fuel (c.skip 1) (ch :: done)

/-- The rest of a quoted scalar. A document cannot end in it. -/
def quotedParts? (quote : Char) : (fuel : Nat) → Cursor → (text : List Char) →
    Option (List Char × Cursor)
  | 0, _, _ => none
  | fuel + 1, c, text =>
    if c.atDocumentEdge then none
    else do
      if c.rest = [] then none
      let (part, gap, c) ← quotedPart? quote (c.rest.length + 1) c []
      let text := text ++ part
      if c.next? = some quote then return (text, c.skip 1)
      let (gap, c) ← gap.read? 0 (c.rest.length + 1) c
      quotedParts? quote fuel c (text ++ gap.text)

/-! ## Block scalars -/

/-- What becomes of the line breaks at the end of a block scalar. -/
inductive Chomping where
  | strip
  | clip
  | keep
  deriving DecidableEq, Repr

/-- The header of a block scalar: a digit that adds to the indentation, and the chomping, in any
order. -/
def blockHeader? (c : Cursor) : Option (Nat × Chomping × Cursor) := do
  let chompingOf (c : Cursor) : Chomping × Cursor :=
    match c.next? with
    | some '+' => (.keep, c.skip 1)
    | some '-' => (.strip, c.skip 1)
    | _ => (.clip, c)
  let stepOf (c : Cursor) : Option (Nat × Cursor) :=
    match c.next? with
    | some ch =>
      if ch.isDigit then if ch = '0' then none else some (ch.toNat - '0'.toNat, c.skip 1)
      else some (0, c)
    | none => some (0, c)
  let (chomping, c) := chompingOf c
  let (step, c) ← stepOf c
  let (chomping, c) := if chomping = .clip && step ≠ 0 then chompingOf c else (chomping, c)
  let c := c.skipWhile isBlank
  let c := if c.next? = some '#' then c.skipWhile (fun ch => !isBreak ch) else c
  if c.endsAt 0 && !(c.next?.any isBlank) then return (step, chomping, c.skipBreak) else none

/-- The empty lines here. While the indentation is not known (zero), the deepest one of these lines
counts. A tab in the indentation is refused. -/
def emptyLines? (indent : Nat) : (fuel : Nat) → Cursor → (breaks : List Char) → (deepest : Nat) →
    Option (List Char × Nat × Cursor)
  | 0, c, breaks, deepest => some (breaks, deepest, c)
  | fuel + 1, c, breaks, deepest =>
    let spaces := (c.rest.takeWhile (· = ' ')).length
    let c := c.skip (if indent = 0 then spaces else min spaces (indent - c.column))
    let deepest := max deepest c.column
    if (indent = 0 || c.column < indent) && c.next? = some '\t' then none
    else
      match c.lineBreak? with
      | some (shown, after) => emptyLines? indent fuel after (breaks ++ [shown]) deepest
      | none => some (breaks, deepest, c)

/-- The text of a block scalar while it is read. -/
structure BlockText where
  text : List Char
  /-- The break behind the last line. -/
  first : List Char
  /-- The breaks of the empty lines after it. -/
  others : List Char
  /-- The last line begins with a blank. -/
  indented : Bool

/-- The lines of a block scalar at their indentation. Folding joins two lines by a space, unless one
of them begins with a blank. -/
def blockLines? (folded : Bool) (indent : Nat) : (fuel : Nat) → Cursor → BlockText →
    Option (BlockText × Cursor)
  | 0, c, b => some (b, c)
  | fuel + 1, c, b =>
    if c.column = indent && c.rest ≠ [] then do
      let indented := c.next?.any isBlank
      let joint :=
        if folded && b.first = ['\n'] && !b.indented && !indented then
          if b.others = [] then [' '] else b.others
        else b.first ++ b.others
      let line := c.rest.takeWhile fun ch => !isBreak ch
      let c := c.skip line.length
      let (first, c) := match c.lineBreak? with
        | some (shown, after) => ([shown], after)
        | none => ([], c)
      let (others, _, c) ← emptyLines? indent (c.rest.length + 1) c [] 0
      blockLines? folded indent fuel c ⟨b.text ++ joint ++ line, first, others, indented⟩
    else some (b, c)

/-- A block scalar after its mark, in a block that is indented by `parent` columns, or by none at
all. -/
def block? (folded : Bool) (parent : Option Nat) (c : Cursor) : Option (List Char × Cursor) := do
  let (step, chomping, c) ← blockHeader? c
  let known := if step = 0 then 0 else parent.getD 0 + step
  let (others, deepest, c) ← emptyLines? known (c.rest.length + 1) c [] 0
  let indent :=
    if known = 0 then max 1 (max deepest (match parent with
      | some n => n + 1
      | none => 0))
    else known
  let (b, c) ← blockLines? folded indent (c.rest.length + 1) c ⟨[], [], others, false⟩
  let text := match chomping with
    | .strip => b.text
    | .clip => b.text ++ b.first
    | .keep => b.text ++ b.first ++ b.others
  return (text, c)

end JobHierarchy.Yaml
