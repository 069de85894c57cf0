import JobHierarchy.Proofs.Addresses
/-!
# Codes in URLs

Five characters of a name are written as codes in a URL. Writing and reading them in one pass comes to the same as
replacing one of them after the other in the whole text (`Segment.encodeChars_eq_foldl`,
`Segment.decodeChars_eq_foldl`). The order is what makes this right: the percent sign, which every code begins with,
is replaced first in a name and put back last in a URL, so that no code comes about by another replacement.

So nothing is lost on the way into a URL and back, and two items never have one URL (`Memory.urls_keep_paths`).
-/

namespace JobHierarchy

namespace Text

/-! ## Replacing in a whole text -/

/-- Every occurrence of the mark that begins with `first` and goes on with `more` becomes `new`, from left to right.
What is put in is not looked at again. -/
def replaceAll (first : Char) (more new : List Char) : List Char → List Char
  | [] => []
  | c :: cs =>
    match _h : if c = first then after? more cs else none with
    | some rest => new ++ replaceAll first more new rest
    | none => c :: replaceAll first more new cs
termination_by cs => cs.length
decreasing_by
  · split at _h
    · have := length_after?_le _h
      simp only [List.length_cons]
      omega
    · cases _h
  · simp

section
variable {first : Char} {more new : List Char}

@[simp] theorem replaceAll_nil : replaceAll first more new [] = [] := by
  rw [replaceAll]

theorem replaceAll_cons_of_ne {c : Char} (h : c ≠ first) (cs : List Char) :
    replaceAll first more new (c :: cs) = c :: replaceAll first more new cs := by
  rw [replaceAll, if_neg h]

theorem replaceAll_of_after? {cs rest : List Char} (h : after? more cs = some rest) :
    replaceAll first more new (first :: cs) = new ++ replaceAll first more new rest := by
  rw [replaceAll, if_pos rfl, h]

theorem replaceAll_of_after?_eq_none {cs : List Char} (h : after? more cs = none) :
    replaceAll first more new (first :: cs) = first :: replaceAll first more new cs := by
  rw [replaceAll, if_pos rfl, h]

end

/-- Replacing a single character looks at each character by itself. -/
theorem replaceAll_char (first : Char) (new : List Char) : ∀ cs : List Char,
    replaceAll first [] new cs = cs.flatMap fun c => if c = first then new else [c]
  | [] => by simp
  | c :: cs => by
    rw [List.flatMap_cons]
    by_cases h : c = first
    · subst h
      rw [replaceAll_of_after? rfl, replaceAll_char c new cs, if_pos rfl]
    · rw [replaceAll_cons_of_ne h, replaceAll_char first new cs, if_neg h, List.singleton_append]

end Text

namespace Segment

open Text

/-- A character with the two characters behind the percent sign of its code. -/
abbrev Code := Char × Char × Char

def percentCode : Code := ('%', '2', '5')

/-- The codes of the other characters. -/
def otherCodes : List Code := [(' ', '2', '0'), ('+', '2', 'B'), ('#', '2', '3'), ('?', '3', 'F')]

/-- The text with one character replaced by its code. -/
def putCode (cs : List Char) (code : Code) : List Char := replaceAll code.1 [] ['%', code.2.1, code.2.2] cs

/-- The text with one code replaced by its character. -/
def takeCode (cs : List Char) (code : Code) : List Char := replaceAll '%' [code.2.1, code.2.2] [code.1] cs

/-! ## Writing -/

theorem putCode_eq (cs : List Char) (code : Code) :
    putCode cs code = cs.flatMap fun c => if c = code.1 then ['%', code.2.1, code.2.2] else [c] :=
  replaceAll_char _ _ cs

/-- **A name is written by five replacements**, of the percent sign first. -/
theorem encodeChars_eq_foldl (cs : List Char) : encodeChars cs = (percentCode :: otherCodes).foldl putCode cs := by
  simp only [percentCode, otherCodes, List.foldl_cons, List.foldl_nil, putCode_eq, List.flatMap_assoc]
  rw [encodeChars]
  congr 1
  funext c
  unfold encodeChar
  split
  · decide
  · decide
  · decide
  · decide
  · decide
  · next h₁ h₂ h₃ h₄ h₅ => simp_all

/-! ## Reading -/

/-- Reads in one pass the codes that are listed; any other text stands for itself. -/
def readCodes (codes : List Code) : List Char → List Char
  | '%' :: a :: b :: rest =>
    match codes.find? fun code => code.2 = (a, b) with
    | some code => code.1 :: readCodes codes rest
    | none => '%' :: readCodes codes (a :: b :: rest)
  | c :: rest => c :: readCodes codes rest
  | [] => []

theorem readCodes_cons {codes : List Code} {c : Char} (h : c ≠ '%') (rest : List Char) :
    readCodes codes (c :: rest) = c :: readCodes codes rest := by
  rw [readCodes]
  intro a b rest' hc
  exact absurd hc h

theorem readCodes_singleton (codes : List Code) (c : Char) : readCodes codes [c] = [c] := by
  rw [readCodes, readCodes]
  simp

theorem readCodes_none : ∀ cs : List Char, readCodes [] cs = cs
  | [] => by rw [readCodes]
  | [c] => readCodes_singleton [] c
  | [c, a] => by
    rw [readCodes, readCodes_none]
    intro a' b rest' _ h
    cases h
  | c :: a :: b :: rest => by
    by_cases h : c = '%'
    · subst h
      rw [readCodes, List.find?_nil]
      simp only
      rw [readCodes_none]
    · rw [readCodes_cons h, readCodes_none]

/-- A code that can be read after others: it is not one of them, and what they stand for is no part of it. -/
structure Code.Follows (code : Code) (codes : List Code) : Prop where
  fst_ne : code.2.1 ≠ '%'
  snd_ne : code.2.2 ≠ '%'
  ne : ∀ earlier ∈ codes, earlier.2 ≠ code.2
  notMem : ∀ earlier ∈ codes, earlier.1 ∉ ['%', code.2.1, code.2.2]

instance (code : Code) (codes : List Code) : Decidable (code.Follows codes) :=
  decidable_of_iff (code.2.1 ≠ '%' ∧ code.2.2 ≠ '%' ∧ (∀ earlier ∈ codes, earlier.2 ≠ code.2) ∧
      ∀ earlier ∈ codes, earlier.1 ∉ ['%', code.2.1, code.2.2])
    ⟨fun h => ⟨h.1, h.2.1, h.2.2.1, h.2.2.2⟩, fun h => ⟨h.fst_ne, h.snd_ne, h.ne, h.notMem⟩⟩

section
variable {codes : List Code} {code : Code}

/-- No text that is read begins with a character that neither stands there nor is put in. -/
theorem after?_readCodes_of_ne {a c : Char} (hc : c ≠ a) (ha : ∀ earlier ∈ codes, earlier.1 ≠ a) (more cs : List Char) :
    after? (a :: more) (readCodes codes (c :: cs)) = none := by
  rw [readCodes.eq_def]
  split
  · next x y rest heq =>
    cases heq
    split
    · next earlier hfind => rw [after?, if_neg (Ne.symm (ha earlier (List.mem_of_find?_eq_some hfind)))]
    · rw [after?, if_neg (Ne.symm hc)]
  · next heq =>
    cases heq
    rw [after?, if_neg (Ne.symm hc)]
  · next heq => cases heq

/-- Where a code does not stand, reading others brings none about. -/
theorem after?_readCodes_eq_none (h : code.Follows codes) (cs : List Char)
    (hno : ∀ rest, cs ≠ code.2.1 :: code.2.2 :: rest) : after? [code.2.1, code.2.2] (readCodes codes cs) = none := by
  have hfst : ∀ earlier ∈ codes, earlier.1 ≠ code.2.1 := fun e he heq => h.notMem e he (by simp [heq])
  have hsnd : ∀ earlier ∈ codes, earlier.1 ≠ code.2.2 := fun e he heq => h.notMem e he (by simp [heq])
  cases cs with
  | nil => rw [readCodes, after?]
  | cons c cs =>
    by_cases hc : c = code.2.1
    · subst hc
      rw [readCodes_cons h.fst_ne, after?, if_pos rfl]
      cases cs with
      | nil => rw [readCodes, after?]
      | cons d cs =>
        have hd : d ≠ code.2.2 := fun e => hno cs (by rw [e])
        exact after?_readCodes_of_ne hd hsnd [] cs
    · exact after?_readCodes_of_ne hc hfst [code.2.2] cs

/-- **One code more**: reading it in what has been read is reading it with the others. -/
theorem takeCode_readCodes (h : code.Follows codes) (cs : List Char) :
    takeCode (readCodes codes cs) code = readCodes (codes ++ [code]) cs := by
  have hpercent : ∀ earlier ∈ codes, earlier.1 ≠ '%' := fun e he heq => h.notMem e he (by simp [heq])
  unfold takeCode
  fun_induction readCodes codes cs with
  | case1 a b rest earlier hfind ih =>
    have hfind' : (codes ++ [code]).find? (fun c => decide (c.2 = (a, b))) = some earlier := by
      rw [List.find?_append, hfind, Option.some_or]
    rw [readCodes, hfind']
    simp only
    rw [replaceAll_cons_of_ne (hpercent earlier (List.mem_of_find?_eq_some hfind)), ih]
  | case2 a b rest hfind ih =>
    by_cases hab : code.2 = (a, b)
    · -- the code stands here, and its two characters were left as they are
      have hfind' : (codes ++ [code]).find? (fun c => decide (c.2 = (a, b))) = some code := by
        rw [List.find?_append, hfind, Option.none_or, List.find?_singleton, if_pos (by simpa using hab)]
      obtain ⟨rfl, rfl⟩ : code.2.1 = a ∧ code.2.2 = b := by simp [hab]
      have hread : ∀ codes, readCodes codes (code.2.1 :: code.2.2 :: rest) =
          code.2.1 :: code.2.2 :: readCodes codes rest := fun codes => by
        rw [readCodes_cons h.fst_ne, readCodes_cons h.snd_ne]
      rw [readCodes, hfind']
      simp only
      rw [hread, replaceAll_cons_of_ne h.fst_ne, replaceAll_cons_of_ne h.snd_ne, hread] at ih
      have hafter : after? [code.2.1, code.2.2] (code.2.1 :: code.2.2 :: readCodes codes rest) =
          some (readCodes codes rest) := by simp [after?]
      rw [hread, replaceAll_of_after? hafter]
      simpa using ih
    · have hfind' : (codes ++ [code]).find? (fun c => decide (c.2 = (a, b))) = none := by
        rw [List.find?_append, hfind, Option.none_or, List.find?_singleton, if_neg (by simpa using hab)]
      have hno := after?_readCodes_eq_none h (a :: b :: rest) fun rest' heq => hab (by
        cases heq
        rfl)
      rw [readCodes, hfind']
      simp only
      rw [replaceAll_of_after?_eq_none hno, ih]
  | case3 c rest hshort ih =>
    by_cases hc : c = '%'
    · subst hc
      have hno := after?_readCodes_eq_none h rest fun rest' heq => hshort _ _ _ rfl heq
      rw [readCodes, replaceAll_of_after?_eq_none hno, ih]
      exact hshort
    · rw [readCodes_cons hc, replaceAll_cons_of_ne hc, ih]
  | case4 => rw [replaceAll_nil, readCodes]

end

/-- The codes in the order in which they are read. -/
def codesRead : List Code := otherCodes ++ [percentCode]

theorem decodeChars_eq_readCodes (cs : List Char) : decodeChars cs = readCodes codesRead cs := by
  fun_induction decodeChars cs with
  | case1 rest ih => rw [readCodes, ih]; rfl
  | case2 rest ih => rw [readCodes, ih]; rfl
  | case3 rest ih => rw [readCodes, ih]; rfl
  | case4 rest ih => rw [readCodes, ih]; rfl
  | case5 rest ih => rw [readCodes, ih]; rfl
  | case6 c rest h₁ h₂ h₃ h₄ h₅ ih =>
    rw [ih, readCodes.eq_def codesRead (c :: rest)]
    split
    · next a b rest' heq =>
      cases heq
      split
      · next code hfind =>
        -- a code that is listed would have been read
        have hcode : code.2 = (a, b) := by simpa using List.find?_some hfind
        have hmem := List.mem_of_find?_eq_some hfind
        simp only [codesRead, otherCodes, percentCode, List.cons_append, List.nil_append, List.mem_cons,
          List.not_mem_nil, or_false] at hmem
        rcases hmem with rfl | rfl | rfl | rfl | rfl <;> cases hcode
        · exact absurd rfl (h₂ rest' rfl)
        · exact absurd rfl (h₃ rest' rfl)
        · exact absurd rfl (h₄ rest' rfl)
        · exact absurd rfl (h₅ rest' rfl)
        · exact absurd rfl (h₁ rest' rfl)
      · rfl
    · next heq =>
      cases heq
      rfl
    · next heq => cases heq
  | case7 => rw [readCodes]

/-- **A URL is read by five replacements**, of the code of the percent sign last. -/
theorem decodeChars_eq_foldl (cs : List Char) : decodeChars cs = codesRead.foldl takeCode cs :=
  calc decodeChars cs = readCodes codesRead cs := decodeChars_eq_readCodes cs
    _ = codesRead.foldl takeCode (readCodes [] cs) := by
      simp only [codesRead, otherCodes, percentCode, List.cons_append, List.nil_append, List.foldl_cons, List.foldl_nil]
      rw [takeCode_readCodes (by decide), takeCode_readCodes (by decide), takeCode_readCodes (by decide),
        takeCode_readCodes (by decide), takeCode_readCodes (by decide)]
      rfl
    _ = codesRead.foldl takeCode cs := by rw [readCodes_none]

/-- A name with one character after the other replaced by its code, the percent sign first. -/
def encodeInTurn (name : String) : String := .ofList ((percentCode :: otherCodes).foldl putCode name.toList)

/-- A text with one code after the other replaced by its character, that of the percent sign last. -/
def decodeInTurn (text : String) : String := .ofList (codesRead.foldl takeCode text.toList)

end Segment

/-! ## Paths in texts -/

namespace Text

/-- Joining loses nothing: cutting gives the parts back. -/
theorem splitAt_joinWith {sep : Char} : ∀ {parts : List (List Char)}, parts ≠ [] → (∀ part ∈ parts, sep ∉ part) →
    splitAt sep (joinWith sep parts) = parts
  | [], hne, _ => absurd rfl hne
  | [part], _, h => splitAt_eq_singleton (h part List.mem_cons_self)
  | part :: next :: parts, _, h => by
    obtain ⟨hpart, hrest⟩ := List.forall_mem_cons.1 h
    rw [joinWith, splitAt_append _ hpart, splitAt_joinWith (List.cons_ne_nil _ _) hrest]
    simp

theorem toList_intercalate_slash : ∀ names : List String,
    ("/".intercalate names).toList = joinWith '/' (names.map String.toList)
  | [] => by simp [joinWith]
  | [name] => by simp [joinWith]
  | name :: next :: names => by
    have ih := toList_intercalate_slash (next :: names)
    rw [String.intercalate_cons_cons, String.toList_append, String.toList_append, ih]
    simp [joinWith]

end Text

namespace Memory

theorem ItemPath.ofString_ne_nil (text : String) : ofString text ≠ [] := by
  unfold ofString Text.parts
  exact fun h => Text.splitAt_ne_nil _ _ (List.map_eq_nil_iff.1 h)

/-- A path is the one that its text stands for. -/
theorem ItemPath.ofString_display {path : ItemPath} (hne : path ≠ []) (h : path.Named) : ofString path.display = path := by
  have hslash : ∀ part ∈ path.map String.toList, '/' ∉ part := by
    intro part hpart
    obtain ⟨name, hname, rfl⟩ := List.mem_map.1 hpart
    exact (h name hname).2
  rw [ofString, Text.parts, display, Text.toList_intercalate_slash, Text.splitAt_joinWith (by simpa using hne) hslash]
  simp

theorem urlOf_inj {path other : ItemPath} (h : path.Named) (h' : other.Named) : urlOf path = urlOf other ↔ path = other := by
  constructor
  · intro heq
    rw [← pathOf_urlOf h, heq, pathOf_urlOf h']
  · rintro rfl
    rfl

/-- **URLs lose nothing.** Names are coded and decoded by replacements that undo each other; a path is read back from
its text and from its URL, with or without the number of a build behind it; and no two paths have one URL. -/
theorem urls_keep_paths :
    (∀ text : String, Segment.encode text = Segment.encodeInTurn text ∧ Segment.decode text = Segment.decodeInTurn text ∧
      Segment.decode (Segment.encode text) = text) ∧
    (∀ path : ItemPath, path ≠ [] → path.Named →
      ItemPath.ofString path.display = path ∧ pathOf (urlOf path) = path ∧
        ∀ number : Nat, pathOf (urlOf path ++ toString number ++ "/") = path) ∧
    ∀ path other : ItemPath, path.Named → other.Named → path ≠ other → urlOf path ≠ urlOf other := by
  refine ⟨fun text => ⟨?_, ?_, ?_⟩, fun path hne h => ⟨?_, ?_, fun number => ?_⟩, fun path other h h' hne => ?_⟩
  · rw [Segment.encode, Segment.encodeChars_eq_foldl, Segment.encodeInTurn]
  · rw [Segment.decode, Segment.decodeChars_eq_foldl, Segment.decodeInTurn]
  · rw [Segment.decode, Segment.encode, String.toList_ofList, Segment.decodeChars_encodeChars, String.ofList_toList]
  · exact ItemPath.ofString_display hne h
  · exact pathOf_urlOf h
  · exact pathOf_buildUrl h number
  · exact fun heq => hne ((urlOf_inj h h').1 heq)

/-- Names that look like parts of a URL: like a step, a code, or the number of a build. -/
def tricky : ItemPath := ["job", "50%2520 +", "#?", "7"]

theorem urls_keep_paths_tricky :
    tricky ≠ [] ∧ tricky.Named ∧ ItemPath.Named ["job"] ∧
      urlOf tricky = "http://jobtree.invalid/job/job/job/50%252520%20%2B/job/%23%3F/job/7/" ∧
      pathOf (urlOf tricky ++ toString 12 ++ "/") = tricky ∧ urlOf tricky ≠ urlOf ["job"] := by
  have hne : tricky ≠ [] := by decide
  have h : tricky.Named := by decide
  have h' : ItemPath.Named ["job"] := by decide
  exact ⟨hne, h, h', by decide +kernel, (urls_keep_paths.2.1 tricky hne h).2.2 12,
    urls_keep_paths.2.2 tricky ["job"] h h' (by decide)⟩

end Memory

end JobHierarchy
