import JobHierarchy.Yaml.ScalarText
import JobHierarchy.Yaml.Token
/-!
# From text to tokens

`Token.ofText` gives the tokens of a text, up to its end or up to what cannot be one. A simple key
is known as such only at the colon behind it, on the same line and at most 1024 characters later;
until then the token that might begin it is held back, and where the text turns out not to be well
formed, tokens that are held back are not given.
-/

namespace JobHierarchy.Yaml

/-- A token that might turn out to begin a simple key. -/
structure KeyCandidate where
  /-- The place in the row of tokens. -/
  position : Nat
  /-- At this column of a block nothing else than a key may stand. -/
  required : Bool
  index : Nat
  line : Nat
  column : Nat
  deriving Repr

structure Lexer where
  cursor : Cursor
  tokens : Array Token
  /-- The columns of the open blocks, innermost first. -/
  indents : List Nat
  /-- The candidate of each open flow collection, innermost first, and that of the block. -/
  keys : List (Option KeyCandidate)
  keyAllowed : Bool
  deriving Repr

namespace Lexer

def start (cs : List Char) : Lexer := ⟨.start cs, #[], [], [none], true⟩

def inFlow (s : Lexer) : Bool := 1 < s.keys.length

/-- Column `c` lies deeper than the innermost block. -/
def deeper (s : Lexer) (column : Nat) : Bool :=
  match s.indents with
  | [] => true
  | i :: _ => i < column

def push (s : Lexer) (t : Token) : Lexer := { s with tokens := s.tokens.push t }

/-- Puts a token in front of the one at a position. -/
def insert (s : Lexer) (position : Nat) (t : Token) : Lexer :=
  { s with
    tokens := s.tokens.extract 0 position ++ #[t] ++ s.tokens.extract position s.tokens.size }

/-! ## Simple keys -/

/-- Drops the candidate at this level. One that was required is missed. -/
def dropKey? (s : Lexer) : Option Lexer :=
  match s.keys with
  | some key :: keys => if key.required then none else some { s with keys := none :: keys }
  | _ => some s

/-- The token that comes next may begin a simple key. -/
def markKey? (s : Lexer) : Option Lexer :=
  if !s.keyAllowed then some s
  else do
    let s ← s.dropKey?
    let required := !s.inFlow && s.indents.head? = some s.cursor.column
    let key : KeyCandidate :=
      ⟨s.tokens.size, required, s.cursor.index, s.cursor.line, s.cursor.column⟩
    return { s with keys := some key :: s.keys.tail }

def isStale (c : Cursor) (key : KeyCandidate) : Bool :=
  key.line < c.line || key.index + 1024 < c.index

/-- Drops the candidates that lie too far back. -/
def dropStale? (s : Lexer) : Option Lexer := do
  let keys ← s.keys.mapM fun
    | some key => if isStale s.cursor key then if key.required then none else some none
      else some (some key)
    | none => some none
  return { s with keys }

/-- The position of the first token that is held back. -/
def held? (s : Lexer) : Option Nat :=
  let positions := s.keys.filterMap fun key => key.bind fun key =>
    if isStale s.cursor key && !key.required then none else some key.position
  positions.min?

/-! ## Blocks -/

/-- Opens a block at a column deeper than the open ones, with a token at a position. -/
def openBlock (s : Lexer) (column position : Nat) (t : Token) : Lexer :=
  if !s.inFlow && s.deeper column then
    { s.insert position t with indents := column :: s.indents }
  else s

/-- Closes the blocks that are deeper than a column; all of them where there is no column. -/
def closeBlocks (s : Lexer) (column : Option Nat) : Lexer :=
  if s.inFlow then s
  else
    let closed := s.indents.takeWhile fun i => match column with
      | some c => c < i
      | none => true
    { s with
      indents := s.indents.drop closed.length
      tokens := s.tokens ++ (closed.map fun _ => Token.blockEnd).toArray }

/-! ## Between tokens -/

/-- Passes white space, comments and line breaks. A tab may not stand where a simple key might. -/
def skipFiller (s : Lexer) : (fuel : Nat) → Lexer
  | 0 => s
  | fuel + 1 =>
    let c := s.cursor.skipWhile fun ch => ch = ' ' || (ch = '\t' && (s.inFlow || !s.keyAllowed))
    let c := if c.next? = some '#' then c.skipWhile (fun ch => !isBreak ch) else c
    match c.lineBreak? with
    | some (_, after) =>
      skipFiller { s with cursor := after, keyAllowed := s.keyAllowed || !s.inFlow } fuel
    | none => { s with cursor := c }

/-! ## Anchors, tags and directives -/

/-- The name of an anchor or alias, after its mark. -/
def anchorName? (c : Cursor) : Option (String × Cursor) :=
  let name := c.rest.takeWhile isWord
  let c := c.skip name.length
  let closed := c.endsAt 0 || (c.next?.any fun ch => "?:,]\x7d%@`".toList.contains ch)
  if name ≠ [] && closed then some (String.ofList name, c) else none

/-- Characters of a tag; `verbatim` ones may hold flow marks too. -/
def isTagChar (verbatim : Bool) (c : Char) : Bool :=
  isWord c || ";/?:@&=+$.!~*'()".toList.contains c
    || (verbatim && (c = ',' || c = '[' || c = ']'))

/-- The text of a tag, with its escaped bytes decoded. -/
def tagText? (verbatim : Bool) : (fuel : Nat) → Cursor → (done : ByteArray) →
    Option (String × Cursor)
  | 0, _, _ => none
  | fuel + 1, c, done =>
    match c.rest with
    | '%' :: a :: b :: _ => do
      let a ← Text.digitValue 16 a
      let b ← Text.digitValue 16 b
      tagText? verbatim fuel (c.skip 3) (done.push (UInt8.ofNat (a * 16 + b)))
    | ch :: _ =>
      if isTagChar verbatim ch then
        tagText? verbatim fuel (c.skip 1) (done ++ (String.singleton ch).toUTF8)
      else if ch = '%' then none
      else (String.fromUTF8? done).map (·, c)
    | [] => (String.fromUTF8? done).map (·, c)

/-- A handle of a tag: an exclamation mark, perhaps a name, and perhaps another mark. -/
def tagHandle? (c : Cursor) : Option (String × Cursor) :=
  match c.rest with
  | '!' :: rest =>
    let name := rest.takeWhile isWord
    let after := c.skip (name.length + 1)
    if after.next? = some '!' then some (String.ofList ('!' :: name ++ ['!']), after.skip 1)
    else some (String.ofList ('!' :: name), after)
  | _ => none

/-- A tag: a handle and what stands behind it. A verbatim tag has an empty handle. -/
def tag? (flow : Bool) (c : Cursor) : Option (Token × Cursor) := do
  let fuel := c.rest.length + 1
  let (token, c) ← match c.rest with
    | '!' :: '<' :: _ => do
      let (text, c) ← tagText? true fuel (c.skip 2) .empty
      if text = "" || c.next? ≠ some '>' then none
      pure (Token.tag "" text, c.skip 1)
    | _ => do
      let (handle, c) ← tagHandle? c
      let name := handle.toList.drop 1
      if name ≠ [] && name.getLast? = some '!' then
        let (text, c) ← tagText? false fuel c .empty
        if text = "" then none
        pure (Token.tag handle text, c)
      else
        let (text, c) ← tagText? false fuel c (String.ofList name).toUTF8
        pure (if text = "" then Token.tag "" "!" else Token.tag "!" text, c)
  if c.endsAt 0 || (flow && c.next? = some ',') then return (token, c) else none

/-- A number of at most nine digits. -/
def versionNumber? (c : Cursor) : Option (Nat × Cursor) :=
  let digits := c.rest.takeWhile Char.isDigit
  if digits = [] || 9 < digits.length then none
  else some (digits.foldl (fun n d => n * 10 + (d.toNat - '0'.toNat)) 0, c.skip digits.length)

/-- A directive after its percent sign, with the line it stands on. -/
def directive? (c : Cursor) : Option (Token × Cursor) := do
  let name := c.rest.takeWhile isWord
  let c := c.skip name.length
  if name = [] || !c.endsAt 0 then none
  let fuel := c.rest.length + 1
  let (token, c) ←
    if name = "YAML".toList then do
      let (major, c) ← versionNumber? (c.skipWhile isBlank)
      if c.next? ≠ some '.' then none
      let (minor, c) ← versionNumber? (c.skip 1)
      pure (Token.version major minor, c)
    else if name = "TAG".toList then do
      let (handle, c) ← tagHandle? (c.skipWhile isBlank)
      if handle ≠ "!" && handle.toList.getLast? ≠ some '!' then none
      if !(c.next?.any isBlank) then none
      let (meaning, c) ← tagText? true fuel (c.skipWhile isBlank) .empty
      if meaning = "" || !c.endsAt 0 then none
      pure (Token.tagPrefix handle meaning, c)
    else none
  let c := c.skipWhile isBlank
  let c := if c.next? = some '#' then c.skipWhile (fun ch => !isBreak ch) else c
  if c.endsAt 0 then return (token, c.skipBreak) else none

/-! ## Tokens -/

/-- A mark of `n` characters as a token; whether a simple key may follow. -/
def mark (s : Lexer) (n : Nat) (t : Token) (keyAllowed : Bool) : Lexer :=
  { s.push t with cursor := s.cursor.skip n, keyAllowed }

def openFlow? (s : Lexer) (t : Token) : Option Lexer := do
  let s ← s.markKey?
  return { s.mark 1 t true with keys := none :: s.keys }

def closeFlow? (s : Lexer) (t : Token) : Option Lexer := do
  let s ← s.dropKey?
  let keys := if s.inFlow then s.keys.tail else s.keys
  return { s.mark 1 t false with keys }

/-- A dash. In a block it opens a sequence, and only where a key might stand. -/
def blockEntry? (s : Lexer) : Option Lexer := do
  if !s.inFlow && !s.keyAllowed then none
  let s := s.openBlock s.cursor.column s.tokens.size .blockSequence
  let s ← s.dropKey?
  return s.mark 1 .blockEntry true

/-- A question mark, which begins a key that is not simple. -/
def key? (s : Lexer) : Option Lexer := do
  if !s.inFlow && !s.keyAllowed then none
  let s := s.openBlock s.cursor.column s.tokens.size .blockMapping
  let s ← s.dropKey?
  return s.mark 1 .key (!s.inFlow)

/-- A colon. The candidate in front of it, if there is one, is a simple key. -/
def value? (s : Lexer) : Option Lexer :=
  match s.keys with
  | some key :: keys =>
    let s := { s with keys := none :: keys }
    let s := s.insert key.position .key
    let s := s.openBlock key.column key.position .blockMapping
    some (s.mark 1 .value false)
  | _ =>
    if !s.inFlow && !s.keyAllowed then none
    else
      let s := s.openBlock s.cursor.column s.tokens.size .blockMapping
      some (s.mark 1 .value (!s.inFlow))

/-- A token that is read by a reader of its own, and after which no simple key may begin. -/
def item? (s : Lexer) (read : Cursor → Option (Token × Cursor)) : Option Lexer := do
  let s ← s.markKey?
  let (t, cursor) ← read s.cursor
  return { s.push t with cursor, keyAllowed := false }

def blockScalar? (s : Lexer) (style : Style) : Option Lexer := do
  let s ← s.dropKey?
  let (text, cursor) ← block? (style = .folded) s.indents.head? (s.cursor.skip 1)
  return { s.push (.scalar style (String.ofList text)) with cursor, keyAllowed := true }

def quoted? (s : Lexer) (quote : Char) : Option Lexer :=
  s.item? fun c => do
    let c := c.skip 1
    let (text, c) ← quotedParts? quote (c.rest.length + 1) c []
    return (.scalar .quoted (String.ofList text), c)

def plain? (s : Lexer) : Option Lexer := do
  let s ← s.markKey?
  let indent := match s.indents with
    | [] => 0
    | i :: _ => i + 1
  let c := s.cursor
  let (text, gap, cursor) ← plainParts? s.inFlow indent (c.rest.length + 1) c [] .none
  return { s.push (.scalar .plain (String.ofList text)) with
    cursor, keyAllowed := gap.crossesLine }

/-- Closes all blocks. -/
def closeAll? (s : Lexer) : Option Lexer := (s.closeBlocks none).dropKey?

def streamEnd? (s : Lexer) : Option Lexer := do
  let c := s.cursor
  let c := if c.column = 0 then c else { c with column := 0, line := c.line + 1 }
  let s ← { s with cursor := c }.closeAll?
  return { s.push .streamEnd with keyAllowed := false }

def documentMark? (s : Lexer) (t : Token) : Option Lexer := do
  return (← s.closeAll?).mark 3 t false

def directiveLine? (s : Lexer) : Option Lexer := do
  let s ← s.closeAll?
  let (t, cursor) ← directive? (s.cursor.skip 1)
  return { s.push t with cursor, keyAllowed := false }

/-- Characters that begin no plain scalar. -/
def isIndicator (c : Char) : Bool := "-?:,[]\x7b\x7d#&*!|>'\"%@`".toList.contains c

/-- The next token. -/
def next? (s : Lexer) : Option Lexer := do
  let s ← (s.skipFiller (s.cursor.rest.length + 1)).dropStale?
  let c := s.cursor
  let s := s.closeBlocks (some c.column)
  match c.next? with
  | none => s.streamEnd?
  | some ch =>
    if c.column = 0 && ch = '%' then s.directiveLine?
    else if c.atMarker '-' then s.documentMark? .documentStart
    else if c.atMarker '.' then s.documentMark? .documentEnd
    else if ch = '[' then s.openFlow? .flowSequence
    else if ch = '\x7b' then s.openFlow? .flowMapping
    else if ch = ']' then s.closeFlow? .flowSequenceEnd
    else if ch = '\x7d' then s.closeFlow? .flowMappingEnd
    else if ch = ',' then do return (← s.dropKey?).mark 1 .flowEntry true
    else if ch = '-' && c.endsAt 1 then s.blockEntry?
    else if ch = '?' && (s.inFlow || c.endsAt 1) then s.key?
    else if ch = ':' && (s.inFlow || c.endsAt 1) then s.value?
    else if ch = '*' then
      s.item? fun c => (anchorName? (c.skip 1)).map fun (name, c) => (.alias name, c)
    else if ch = '&' then
      s.item? fun c => (anchorName? (c.skip 1)).map fun (name, c) => (.anchor name, c)
    else if ch = '!' then s.item? (tag? s.inFlow)
    else if ch = '|' && !s.inFlow then s.blockScalar? .literal
    else if ch = '>' && !s.inFlow then s.blockScalar? .folded
    else if ch = '\'' || ch = '\x22' then s.quoted? ch
    else if !(isBlank ch || isIndicator ch) || (ch = '-' && !((c.ahead? 1).any isBlank))
        || (!s.inFlow && (ch = '?' || ch = ':')) then s.plain?
    else none

/-- The tokens from here on. -/
def run : (fuel : Nat) → Lexer → List Token
  | 0, s => s.tokens.toList
  | fuel + 1, s =>
    match s.next? with
    | none => s.tokens.toList.take (s.held?.getD s.tokens.size)
    | some s =>
      if s.tokens.back? = some .streamEnd then s.tokens.toList else run fuel s

end Lexer

/-- The tokens of a text. Where the last one is not `streamEnd`, the text is not well formed behind
them. A byte order mark in front does not count. -/
def Token.ofText (text : String) : List Token :=
  let cs := match text.toList with
    | '\uFEFF' :: rest => rest
    | cs => cs
  if cs.all isAllowed then Lexer.run (cs.length + 1) (.start cs) else []

end JobHierarchy.Yaml
