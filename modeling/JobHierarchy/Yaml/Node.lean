import JobHierarchy.Yaml.Lexer
/-!
# YAML nodes

A `Document` is the tree that the first document of a text stands for. Where the text is not well
formed the tree has a `broken` leaf, so that what stands before the fault can still be judged.
Aliases are replaced by what they stand for.
-/

namespace JobHierarchy.Yaml

inductive Node where
  | scalar (tag : Option String) (style : Style) (text : String)
  | sequence (tag : Option String) (items : List Node)
  | mapping (tag : Option String) (entries : List (Node × Node))
  /-- The content of an alias within the collection that it stands for. -/
  | endless
  /-- Here the text is not well formed. -/
  | broken
  deriving Repr, Inhabited

namespace Node

/-- What stands where nothing is written. -/
def empty : Node := .scalar none .plain ""

end Node

/-- What is known in the middle of a document: the tokens to come, what anchors stand for, and the
meaning of tag handles. -/
structure Context where
  tokens : List Token
  anchors : List (String × Node)
  handles : List (String × String)
  deriving Repr

namespace Context

def next? (c : Context) : Option Token := c.tokens.head?

def skip (c : Context) : Context := { c with tokens := c.tokens.tail }

def name (c : Context) (anchor : Option String) (node : Node) : Context :=
  match anchor with
  | some a => { c with anchors := (a, node) :: c.anchors }
  | none => c

/-- The full text of a tag; nothing if its handle has no meaning. -/
def tagText? (c : Context) : String × String → Option String
  | ("", suffix) => some suffix
  | (handle, suffix) => (c.handles.lookup handle).map (· ++ suffix)

end Context

/-- The handles that every document knows. -/
def standardHandles : List (String × String) := [("!", "!"), ("!!", "tag:yaml.org,2002:")]

/-- An anchor and a tag in front of a node, in any order. -/
structure Properties where
  anchor : Option String
  tag : Option (String × String)

def readProperties (c : Context) : Properties × Context :=
  match c.tokens with
  | .anchor a :: .tag h s :: rest => (⟨some a, some (h, s)⟩, { c with tokens := rest })
  | .tag h s :: .anchor a :: rest => (⟨some a, some (h, s)⟩, { c with tokens := rest })
  | .anchor a :: rest => (⟨some a, none⟩, { c with tokens := rest })
  | .tag h s :: rest => (⟨none, some (h, s)⟩, { c with tokens := rest })
  | _ => (⟨none, none⟩, c)

/-- A part of a tree and what follows it; nothing follows a fault. -/
abbrev Partial (α : Type) := α × Option Context

/-- Where a value of a block mapping or a node of a sequence may be left out. -/
def isBlockStop : Token → Bool
  | .key | .value | .blockEnd => true
  | _ => false

/-- Adds an entry in front of those that follow it. -/
def withEntry (key value : Node) (rest : Partial (List (Node × Node))) :
    Partial (List (Node × Node)) :=
  ((key, value) :: rest.1, rest.2)

def withItem (item : Node) (rest : Partial (List Node)) : Partial (List Node) :=
  (item :: rest.1, rest.2)

mutual

/-- A node. In a flow collection it is no block; where `indentless`, it may be a sequence whose
dashes are not indented. -/
def readNode : (fuel : Nat) → (block indentless : Bool) → Context → Partial Node
  | 0, _, _, _ => (.broken, none)
  | fuel + 1, block, indentless, c =>
    match c.next? with
    | some (.alias name) =>
      match c.anchors.lookup name with
      | some node => (node, some c.skip)
      | none => (.broken, none)
    | _ =>
      let (props, c) := readProperties c
      let resolved : Option (Option String) := match props.tag with
        | none => some none
        | some t => (c.tagText? t).map some
      match resolved with
      | none => (.broken, none)
      | some tag =>
        let close (make : Node) (rest : Option Context) : Partial Node :=
          (make, rest.map fun c => c.name props.anchor make)
        let inside := c.name props.anchor .endless
        match c.next? with
        | some (.scalar style text) =>
          let node : Node :=
            if tag = some "!" then .scalar none style text else .scalar tag style text
          (node, some (c.skip.name props.anchor node))
        | some .flowSequence =>
          let (items, rest) := readFlowItems fuel true inside.skip
          close (.sequence tag items) rest
        | some .flowMapping =>
          let (entries, rest) := readFlowEntries fuel true inside.skip
          close (.mapping tag entries) rest
        | some t =>
          if t = .blockEntry && indentless then
            let (items, rest) := readIndentless fuel inside
            close (.sequence tag items) rest
          else if t = .blockSequence && block then
            let (items, rest) := readBlockItems fuel inside.skip
            close (.sequence tag items) rest
          else if t = .blockMapping && block then
            let (entries, rest) := readBlockEntries fuel inside.skip
            close (.mapping tag entries) rest
          else if props.anchor.isSome || tag.isSome then
            let node : Node := .scalar tag .plain ""
            (node, some (c.name props.anchor node))
          else (.broken, none)
        | none => (.broken, none)

/-- The items of a block sequence. -/
def readBlockItems : (fuel : Nat) → Context → Partial (List Node)
  | 0, _ => ([.broken], none)
  | fuel + 1, c =>
    match c.next? with
    | some .blockEntry =>
      let c := c.skip
      match c.next? with
      | none => ([.broken], none)
      | some t =>
        if t = .blockEntry || t = .blockEnd then withItem .empty (readBlockItems fuel c)
        else
          match readNode fuel true false c with
          | (node, some c) => withItem node (readBlockItems fuel c)
          | (node, none) => ([node], none)
    | some .blockEnd => ([], some c.skip)
    | _ => ([.broken], none)

/-- The items of a sequence whose dashes stand in the column of the key in front of it. -/
def readIndentless : (fuel : Nat) → Context → Partial (List Node)
  | 0, _ => ([.broken], none)
  | fuel + 1, c =>
    match c.next? with
    | some .blockEntry =>
      let c := c.skip
      match c.next? with
      | none => ([.broken], none)
      | some t =>
        if t = .blockEntry || isBlockStop t then withItem .empty (readIndentless fuel c)
        else
          match readNode fuel true false c with
          | (node, some c) => withItem node (readIndentless fuel c)
          | (node, none) => ([node], none)
    | some _ => ([], some c)
    | none => ([.broken], none)

/-- The entries of a block mapping. -/
def readBlockEntries : (fuel : Nat) → Context → Partial (List (Node × Node))
  | 0, _ => ([(.broken, .broken)], none)
  | fuel + 1, c =>
    match c.next? with
    | some .key =>
      let c := c.skip
      match c.next? with
      | none => ([(.broken, .broken)], none)
      | some t =>
        match (if isBlockStop t then (Node.empty, some c) else readNode fuel true true c) with
        | (key, none) => ([(key, .broken)], none)
        | (key, some c) => readBlockValue fuel key c
    | some .blockEnd => ([], some c.skip)
    -- a value without a key in front of it
    | some .value => ([(.broken, .broken)], none)
    | _ => ([(.broken, .broken)], none)

/-- The value of a key of a block mapping, and the entries after it. -/
def readBlockValue : (fuel : Nat) → Node → Context → Partial (List (Node × Node))
  | 0, key, _ => ([(key, .broken)], none)
  | fuel + 1, key, c =>
    match c.next? with
    | none => ([(key, .broken)], none)
    | some .value =>
      let c := c.skip
      match c.next? with
      | none => ([(key, .broken)], none)
      | some t =>
        if isBlockStop t then withEntry key .empty (readBlockEntries fuel c)
        else
          match readNode fuel true true c with
          | (value, some c) => withEntry key value (readBlockEntries fuel c)
          | (value, none) => ([(key, value)], none)
    | some _ => withEntry key .empty (readBlockEntries fuel c)

/-- The items of a flow sequence; before all but the first stands a comma. An item may be a mapping
of one entry, without braces. -/
def readFlowItems : (fuel : Nat) → (first : Bool) → Context → Partial (List Node)
  | 0, _, _ => ([.broken], none)
  | fuel + 1, first, c =>
    match c.next? with
    | some .flowSequenceEnd => ([], some c.skip)
    | none => ([.broken], none)
    | some t =>
      if !first && t ≠ .flowEntry then ([.broken], none)
      else
        let c := if first then c else c.skip
        match c.next? with
        | none => ([.broken], none)
        | some .flowSequenceEnd => ([], some c.skip)
        | some .key =>
          match readPair fuel c.skip with
          | (node, some c) => withItem node (readFlowItems fuel false c)
          | (node, none) => ([node], none)
        | some _ =>
          match readNode fuel false false c with
          | (node, some c) => withItem node (readFlowItems fuel false c)
          | (node, none) => ([node], none)

/-- A mapping of one entry in a flow sequence. After a key that is left out, one token is passed
over unread. -/
def readPair : (fuel : Nat) → Context → Partial Node
  | 0, _ => (.mapping none [(.broken, .broken)], none)
  | fuel + 1, c =>
    let isStop (t : Token) := t = .flowEntry || t = .flowSequenceEnd
    match c.next? with
    | none => (.mapping none [(.broken, .broken)], none)
    | some t =>
      let key : Partial Node :=
        if t = .value || isStop t then (.empty, some c.skip) else readNode fuel false false c
      match key with
      | (key, none) => (.mapping none [(key, .broken)], none)
      | (key, some c) =>
        match c.next? with
        | none => (.mapping none [(key, .broken)], none)
        | some .value =>
          let c := c.skip
          match c.next? with
          | none => (.mapping none [(key, .broken)], none)
          | some t =>
            if isStop t then (.mapping none [(key, .empty)], some c)
            else
              let (value, rest) := readNode fuel false false c
              (.mapping none [(key, value)], rest)
        | some _ => (.mapping none [(key, .empty)], some c)

/-- The entries of a flow mapping; before all but the first stands a comma. -/
def readFlowEntries : (fuel : Nat) → (first : Bool) → Context → Partial (List (Node × Node))
  | 0, _, _ => ([(.broken, .broken)], none)
  | fuel + 1, first, c =>
    match c.next? with
    | some .flowMappingEnd => ([], some c.skip)
    | none => ([(.broken, .broken)], none)
    | some t =>
      if !first && t ≠ .flowEntry then ([(.broken, .broken)], none)
      else
        let c := if first then c else c.skip
        match c.next? with
        | none => ([(.broken, .broken)], none)
        | some .flowMappingEnd => ([], some c.skip)
        | some .key =>
          let c := c.skip
          match c.next? with
          | none => ([(.broken, .broken)], none)
          | some t =>
            let key : Partial Node :=
              if t = .value || t = .flowEntry || t = .flowMappingEnd then (.empty, some c)
              else readNode fuel false false c
            match key with
            | (key, none) => ([(key, .broken)], none)
            | (key, some c) => readFlowValue fuel key c
        | some _ =>
          match readNode fuel false false c with
          | (key, none) => ([(key, .broken)], none)
          | (key, some c) =>
            match c.next? with
            | none => ([(key, .broken)], none)
            | some _ => withEntry key .empty (readFlowEntries fuel false c)

/-- The value of a key of a flow mapping, and the entries after it. -/
def readFlowValue : (fuel : Nat) → Node → Context → Partial (List (Node × Node))
  | 0, key, _ => ([(key, .broken)], none)
  | fuel + 1, key, c =>
    match c.next? with
    | none => ([(key, .broken)], none)
    | some .value =>
      let c := c.skip
      match c.next? with
      | none => ([(key, .broken)], none)
      | some t =>
        if t = .flowEntry || t = .flowMappingEnd then
          withEntry key .empty (readFlowEntries fuel false c)
        else
          match readNode fuel false false c with
          | (value, some c) => withEntry key value (readFlowEntries fuel false c)
          | (value, none) => ([(key, value)], none)
    | some _ => withEntry key .empty (readFlowEntries fuel false c)

end

/-- The first document of a text. -/
structure Document where
  root : Node
  /-- The text is well formed to its end, and there is no other document. -/
  sound : Bool
  deriving Repr

/-- The directives in front of a document: the handles they define. -/
def readDirectives : (versioned : Bool) → List (String × String) → List Token →
    Option (List (String × String) × List Token)
  | versioned, handles, .version major minor :: rest =>
    if versioned || major ≠ 1 || (minor ≠ 1 && minor ≠ 2) then none
    else readDirectives true handles rest
  | versioned, handles, .tagPrefix handle meaning :: rest =>
    if (handles.lookup handle).isSome then none
    else readDirectives versioned ((handle, meaning) :: handles) rest
  | _, handles, rest => some (handles, rest)

def Document.ofTokens (tokens : List Token) : Document :=
  let fuel := 2 * tokens.length + 2
  let fault : Document := ⟨.broken, false⟩
  let content (c : Context) : Document :=
    match readNode fuel true false c with
    | (root, some c) =>
      ⟨root, c.tokens.dropWhile (· = .documentEnd) = [.streamEnd]⟩
    | (root, none) => ⟨root, false⟩
  match tokens with
  | .streamEnd :: _ => ⟨.empty, true⟩
  | .version .. :: _ | .tagPrefix .. :: _ | .documentStart :: _ =>
    match readDirectives false [] tokens with
    | some (handles, .documentStart :: rest) =>
      let c : Context := ⟨rest, [], handles ++ standardHandles⟩
      match c.next? with
      | none => fault
      | some (.version ..) | some (.tagPrefix ..) | some .documentStart | some .documentEnd
      | some .streamEnd => ⟨.empty, rest.dropWhile (· = .documentEnd) = [.streamEnd]⟩
      | some _ => content c
    | _ => fault
  | _ => content ⟨tokens, [], standardHandles⟩

/-- The document that a text begins with. -/
def Document.ofText (text : String) : Document := .ofTokens (Token.ofText text)

end JobHierarchy.Yaml
