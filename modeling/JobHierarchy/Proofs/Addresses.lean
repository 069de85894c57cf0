import JobHierarchy.Memory.Address
/-!
# URLs stand for paths

An item's URL is written from its path and read back from the URL's parts. Both directions agree for
every path of item names, whatever characters the names hold, and a build number at the end of a URL
changes nothing. So the handle of a scope is a faithful name for the path of the scope, and the handle
that a walk carries one level down is again the handle of a path.
-/

namespace JobHierarchy

namespace Text

theorem splitAt_append {sep : Char} : ∀ {part : List Char} (rest : List Char), sep ∉ part →
    splitAt sep (part ++ sep :: rest) = part :: splitAt sep rest
  | [], rest, _ => by simp [splitAt]
  | c :: part, rest, h => by
    obtain ⟨hc, hp⟩ := not_or.1 (fun hm => h (List.mem_cons.2 hm))
    rw [List.cons_append, splitAt, splitAt_append rest hp, if_neg (Ne.symm hc)]

theorem splitAt_eq_singleton {sep : Char} : ∀ {part : List Char}, sep ∉ part → splitAt sep part = [part]
  | [], _ => rfl
  | c :: part, h => by
    obtain ⟨hc, hp⟩ := not_or.1 (fun hm => h (List.mem_cons.2 hm))
    rw [splitAt, splitAt_eq_singleton hp, if_neg (Ne.symm hc)]

theorem after?_append : ∀ lead rest : List Char, after? lead (lead ++ rest) = some rest
  | [], _ => rfl
  | l :: lead, rest => by rw [List.cons_append, after?, if_pos rfl, after?_append lead rest]

theorem after?_eq_some_iff {lead cs rest : List Char} : after? lead cs = some rest ↔ cs = lead ++ rest := by
  constructor
  · intro h
    induction lead generalizing cs with
    | nil => exact Option.some.inj h
    | cons l lead ih =>
      cases cs with
      | nil => cases h
      | cons c cs =>
        rw [after?] at h
        split at h
        · next hc => rw [hc, ih h, List.cons_append]
        · cases h
  · rintro rfl
    exact after?_append lead rest

theorem after?_isSome_iff {lead cs : List Char} : (after? lead cs).isSome = true ↔ lead <+: cs := by
  rw [Option.isSome_iff_exists]
  exact exists_congr fun rest => after?_eq_some_iff.trans eq_comm

end Text

/-! ## Names in URLs -/

namespace Segment

theorem decodeChars_cons {c : Char} (h : c ≠ '%') (rest : List Char) :
    decodeChars (c :: rest) = c :: decodeChars rest := by
  rw [decodeChars]
  all_goals
    intro rest' hc
    exact absurd hc h

/-- A written character reads back, whatever follows it. -/
theorem decodeChars_encodeChar (c : Char) (rest : List Char) :
    decodeChars (encodeChar c ++ rest) = c :: decodeChars rest := by
  unfold encodeChar
  split
  · rfl
  · rfl
  · rfl
  · rfl
  · rfl
  · next h _ _ _ _ => exact decodeChars_cons h rest

theorem decodeChars_encodeChars : ∀ cs : List Char, decodeChars (encodeChars cs) = cs
  | [] => rfl
  | c :: cs => by
    rw [encodeChars, List.flatMap_cons, decodeChars_encodeChar]
    rw [show cs.flatMap encodeChar = encodeChars cs from rfl, decodeChars_encodeChars cs]

theorem encodeChar_ne_nil (c : Char) : encodeChar c ≠ [] := by
  unfold encodeChar
  split <;> simp

theorem slash_notMem_encodeChar {c : Char} (h : c ≠ '/') : '/' ∉ encodeChar c := by
  unfold encodeChar
  split
  · decide
  · decide
  · decide
  · decide
  · decide
  · simpa using Ne.symm h

theorem slash_notMem_encodeChars {cs : List Char} (h : '/' ∉ cs) : '/' ∉ encodeChars cs := by
  intro hm
  obtain ⟨c, hc, hs⟩ := List.mem_flatMap.1 hm
  exact slash_notMem_encodeChar (fun e => h (e ▸ hc)) hs

theorem encodeChars_ne_nil {cs : List Char} (h : cs ≠ []) : encodeChars cs ≠ [] := by
  obtain ⟨c, rest, rfl⟩ := List.exists_cons_of_ne_nil h
  simp [encodeChars, encodeChar_ne_nil]

end Segment

theorem IsItemName.toList_ne_nil {name : String} (h : IsItemName name) : name.toList ≠ [] := by
  intro e
  exact h.1 (String.toList_inj.1 e)

theorem toList_itemStep (name : String) :
    (itemStep name).toList = ['j', 'o', 'b'] ++ '/' :: (Segment.encodeChars name.toList ++ ['/']) := by
  simp [itemStep, Segment.encode]

/-! ## Paths in URLs -/

namespace Memory

/-- A path that an item can have: at least one name, and item names only. -/
def ItemPath.Named (path : ItemPath) : Prop := ∀ name ∈ path, IsItemName name

instance (path : ItemPath) : Decidable path.Named :=
  inferInstanceAs (Decidable (∀ name ∈ path, IsItemName name))

theorem ItemPath.named_append {path above : ItemPath} :
    ItemPath.Named (above ++ path) ↔ above.Named ∧ path.Named := by
  simp only [Named, List.mem_append]
  exact ⟨fun h => ⟨fun n hn => h n (.inl hn), fun n hn => h n (.inr hn)⟩,
    fun h n hn => hn.elim (h.1 n) (h.2 n)⟩

theorem ItemPath.named_singleton {name : String} : ItemPath.Named [name] ↔ IsItemName name := by
  simp [Named]

/-- An item name leads one level down. -/
theorem ItemPath.item_eq {name : String} (h : IsItemName name) (scope : ItemPath) :
    scope.item name = scope ++ [name] := by
  simp [item, ofString, Text.parts, Text.splitAt_eq_singleton h.2]

/-- The parts of a URL, read step by step. -/
theorem namesOf_steps : ∀ {path : ItemPath} (rest : List Char), path.Named →
    namesOf ((Text.splitAt '/' ((String.join (path.map itemStep)).toList ++ rest)).filter (· ≠ [])) =
      path ++ namesOf ((Text.splitAt '/' rest).filter (· ≠ []))
  | [], _, _ => by simp
  | name :: path, rest, h => by
    have hname : IsItemName name := h name List.mem_cons_self
    have hpath : ItemPath.Named path := fun n hn => h n (List.mem_cons_of_mem _ hn)
    have hslash := Segment.slash_notMem_encodeChars hname.2
    have hne := Segment.encodeChars_ne_nil hname.toList_ne_nil
    rw [List.map_cons, String.join_cons, String.toList_append, toList_itemStep]
    simp only [List.append_assoc, List.cons_append, List.nil_append]
    rw [show 'j' :: 'o' :: 'b' :: '/' :: (Segment.encodeChars name.toList ++ '/' ::
        ((String.join (path.map itemStep)).toList ++ rest)) = ['j', 'o', 'b'] ++ '/' ::
        (Segment.encodeChars name.toList ++ '/' :: ((String.join (path.map itemStep)).toList ++ rest)) from rfl]
    rw [Text.splitAt_append _ (by decide), Text.splitAt_append _ hslash]
    rw [List.filter_cons_of_pos (by decide), List.filter_cons_of_pos (by simpa using hne)]
    rw [namesOf, if_pos rfl, namesOf_steps rest hpath, Segment.decodeChars_encodeChars]
    simp

/-- **A URL with something behind it**: the path comes first, then what the rest reads as. -/
theorem pathOf_urlOf_append {path : ItemPath} (h : path.Named) (rest : String) :
    pathOf (urlOf path ++ rest) = path ++ namesOf ((Text.splitAt '/' rest.toList).filter (· ≠ [])) := by
  unfold pathOf urlOf
  rw [String.toList_append, String.toList_append, List.append_assoc, Text.after?_append, Option.getD_some]
  exact namesOf_steps rest.toList h

theorem pathOf_urlOf {path : ItemPath} (h : path.Named) : pathOf (urlOf path) = path := by
  have := pathOf_urlOf_append h ""
  simpa [Text.splitAt, namesOf] using this

theorem slash_notMem_toString (number : Nat) : '/' ∉ (toString number).toList := by
  intro hm
  have hm : '/' ∈ Nat.toDigits 10 number := by simpa [Nat.repr, toString] using hm
  have hd := Nat.isDigit_of_mem_toDigits (by decide) (by decide) hm
  exact absurd hd (by decide)

/-- A build number behind a URL is dropped. -/
theorem pathOf_buildUrl {path : ItemPath} (h : path.Named) (number : Nat) :
    pathOf (urlOf path ++ toString number ++ "/") = path := by
  rw [String.append_assoc, pathOf_urlOf_append h, String.toList_append]
  rw [show "/".toList = '/' :: [] by decide, Text.splitAt_append _ (slash_notMem_toString number)]
  rw [List.filter_cons_of_pos (by simp)]
  simp [Text.splitAt, namesOf]

/-! ## Handles of paths -/

theorem urlOf_slashed (path : ItemPath) : (urlOf path).toList.getLast? = some '/' := by
  rcases List.eq_nil_or_concat path with rfl | ⟨above, name, rfl⟩
  · decide
  · have hstep : (itemStep name).toList.getLast? = some '/' := by
      rw [toList_itemStep, ← List.cons_append, ← List.append_assoc, List.getLast?_concat]
    rw [urlOf, List.concat_eq_append, List.map_append, String.join_append, ← String.append_assoc, String.toList_append]
    rw [show String.join ([name].map itemStep) = itemStep name by simp]
    rw [List.getLast?_append, hstep, Option.some_or]

/-- The handle of the folder at a path. -/
def handleOf (path : ItemPath) : FolderHandle := ⟨urlOf path, urlOf_slashed path⟩

theorem ofUrl_urlOf (path : ItemPath) : FolderHandle.ofUrl (urlOf path) = handleOf path := by
  unfold FolderHandle.ofUrl handleOf withSlash
  simp only [urlOf_slashed, if_true]

/-- The scope at a path: no handle stands for the top level. -/
def scopeOf (path : ItemPath) : Option FolderHandle := if path = [] then none else some (handleOf path)

@[simp] theorem scopeOf_nil : scopeOf [] = none := rfl

theorem scopeOf_of_ne_nil {path : ItemPath} (h : path ≠ []) : scopeOf path = some (handleOf path) :=
  if_neg h

@[simp] theorem scopeOf_append_singleton (path : ItemPath) (name : String) :
    scopeOf (path ++ [name]) = some (handleOf (path ++ [name])) := scopeOf_of_ne_nil (by simp)

theorem scopePath_scopeOf {path : ItemPath} (h : path.Named) : scopePath (scopeOf path) = path := by
  by_cases hp : path = []
  · subst hp; rfl
  · rw [scopeOf_of_ne_nil hp]
    exact pathOf_urlOf h

theorem scopeUrl_scopeOf (path : ItemPath) : scopeUrl baseUrl (scopeOf path) = urlOf path := by
  by_cases hp : path = []
  · subst hp; rfl
  · rw [scopeOf_of_ne_nil hp]
    rfl

/-- One step down from the scope at a path is the handle one name further. -/
theorem itemUrl_scopeOf (path : ItemPath) (name : String) :
    itemUrl baseUrl (scopeOf path) name = urlOf (path ++ [name]) := by
  rw [itemUrl, scopeUrl_scopeOf]
  simp [urlOf, String.append_assoc]

theorem jobPath_scopeOf {path : ItemPath} {name : String} (h : path.Named) (hn : IsItemName name) :
    jobPath ⟨scopeOf path, name⟩ = path ++ [name] := by
  rw [jobPath, scopePath_scopeOf h, ItemPath.item_eq hn]

end Memory

/-- The handle of a folder on the in-memory server: the server's URL and behind it the URL of the
folder below a server. The top level has none. -/
def FolderPath.handle? (path : FolderPath) : Option FolderHandle :=
  if path.isTopLevel then none
  else some ⟨Memory.baseUrl ++ path.urlPath, Memory.urlOf_slashed path.segments⟩

theorem FolderPath.handle?_eq (path : FolderPath) : path.handle? = Memory.scopeOf path.segments := by
  unfold handle? Memory.scopeOf isTopLevel
  simp only [List.isEmpty_iff]
  rfl

end JobHierarchy
