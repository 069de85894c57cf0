import JobHierarchy.Proofs.Handles
/-!
# Folder paths as texts

A folder path is written as its names with a slash between neighbours. A text may have one slash more in front and one
more behind, and no other text is read as the path (`FolderPath.texts_read`). One slash at each end of a text is
stripped before it is cut into names. What is left is the display text of a path, or of none: a display text neither
begins nor ends with a slash, and cutting it gives back the names that were joined.
-/

namespace JobHierarchy

namespace Text

variable {sep : Char} {parts : List (List Char)}

theorem joinWith_eq_nil_iff (h : ∀ part ∈ parts, part ≠ []) : joinWith sep parts = [] ↔ parts = [] := by
  rcases parts with _ | ⟨part, rest⟩
  · simp [joinWith]
  · have hpart := h part List.mem_cons_self
    cases rest <;> simp [joinWith, hpart]

/-- Joined parts do not begin with the separator. -/
theorem head?_joinWith_ne (h : ∀ part ∈ parts, part ≠ [] ∧ sep ∉ part) : (joinWith sep parts).head? ≠ some sep := by
  rcases parts with _ | ⟨part, rest⟩
  · simp [joinWith]
  · obtain ⟨hne, hsep⟩ := h part List.mem_cons_self
    obtain ⟨c, cs, rfl⟩ := List.exists_cons_of_ne_nil hne
    have hc : c ≠ sep := fun e => hsep (e ▸ List.mem_cons_self)
    cases rest <;> simp [joinWith, hc]

/-- Joined parts do not end with the separator. -/
theorem getLast?_joinWith_ne : ∀ {parts : List (List Char)}, (∀ part ∈ parts, part ≠ [] ∧ sep ∉ part) →
    (joinWith sep parts).getLast? ≠ some sep
  | [], _ => by simp [joinWith]
  | [part], h => fun hlast => (h part List.mem_cons_self).2 (List.mem_of_getLast? hlast)
  | part :: next :: rest, h => by
    have hrest := (List.forall_mem_cons.1 h).2
    have hne : joinWith sep (next :: rest) ≠ [] := fun e =>
      List.cons_ne_nil next rest ((joinWith_eq_nil_iff fun part hpart => (hrest part hpart).1).1 e)
    have hlast : (sep :: joinWith sep (next :: rest)).getLast? = (joinWith sep (next :: rest)).getLast? := by
      rw [List.getLast?_cons, List.getLast?_eq_some_getLast hne, Option.getD_some]
    rw [joinWith, List.getLast?_append_cons, hlast]
    · exact getLast?_joinWith_ne hrest
    · simp

end Text

namespace FolderPath

variable {path child : FolderPath} {text name : String} {segments : List String} {cs lead trail : List Char}

/-! ## Slashes at the ends -/

/-- The text without one slash behind, if there is one. -/
def trimLast (cs : List Char) : List Char := if cs.getLast? = some '/' then cs.dropLast else cs

theorem trimSlashes_slash (cs : List Char) : trimSlashes ('/' :: cs) = trimLast cs := rfl

theorem trimSlashes_of_head?_ne (h : cs.head? ≠ some '/') : trimSlashes cs = trimLast cs := by
  unfold trimSlashes
  change trimLast _ = trimLast cs
  split
  · simp at h
  · rfl

/-- At most one slash is stripped behind. -/
theorem exists_behind_trimLast (cs : List Char) : ∃ trail ∈ [[], ['/']], cs = trimLast cs ++ trail := by
  unfold trimLast
  by_cases hlast : cs.getLast? = some '/'
  · exact ⟨['/'], by simp, by rw [if_pos hlast, List.dropLast_append_getLast? _ hlast]⟩
  · exact ⟨[], by simp, by rw [if_neg hlast, List.append_nil]⟩

/-- At most one slash is stripped in front, and at most one behind. -/
theorem exists_around_trimSlashes (cs : List Char) :
    ∃ lead ∈ [[], ['/']], ∃ trail ∈ [[], ['/']], cs = lead ++ trimSlashes cs ++ trail := by
  by_cases hhead : cs.head? = some '/'
  · obtain ⟨rest, rfl⟩ := List.head?_eq_some_iff.1 hhead
    obtain ⟨trail, htrail, hrest⟩ := exists_behind_trimLast rest
    refine ⟨['/'], by simp, trail, htrail, ?_⟩
    rw [trimSlashes_slash, List.append_assoc, ← hrest]
    rfl
  · obtain ⟨trail, htrail, hcs⟩ := exists_behind_trimLast cs
    refine ⟨[], by simp, trail, htrail, ?_⟩
    rw [trimSlashes_of_head?_ne hhead, List.nil_append, ← hcs]

theorem trimLast_behind (hlast : cs.getLast? ≠ some '/') (htrail : trail ∈ [[], ['/']]) :
    trimLast (cs ++ trail) = cs := by
  unfold trimLast
  rcases List.mem_pair.1 htrail with rfl | rfl
  · rw [List.append_nil, if_neg hlast]
  · rw [List.getLast?_concat, if_pos rfl, List.dropLast_concat]

/-- Slashes around a text that has none at its ends come off again. -/
theorem trimSlashes_around (hhead : cs.head? ≠ some '/') (hlast : cs.getLast? ≠ some '/')
    (hlead : lead ∈ [[], ['/']]) (htrail : trail ∈ [[], ['/']]) : trimSlashes (lead ++ cs ++ trail) = cs := by
  rcases List.mem_pair.1 hlead with rfl | rfl
  · rcases cs with _ | ⟨c, cs⟩
    · -- a single slash is the one in front, and nothing is left behind it
      rcases List.mem_pair.1 htrail with rfl | rfl <;> rfl
    · rw [List.nil_append, trimSlashes_of_head?_ne (by simpa using hhead), trimLast_behind hlast htrail]
  · rw [List.append_assoc, List.singleton_append, trimSlashes_slash, trimLast_behind hlast htrail]

/-! ## Display texts -/

theorem toList_display (path : FolderPath) :
    path.display.toList = Text.joinWith '/' (path.segments.map String.toList) :=
  Text.toList_intercalate_slash path.segments

theorem parts_segments (path : FolderPath) : ∀ part ∈ path.segments.map String.toList, part ≠ [] ∧ '/' ∉ part := by
  intro part hpart
  obtain ⟨name, hname, rfl⟩ := List.mem_map.1 hpart
  exact ⟨(path.named name hname).toList_ne_nil, (path.named name hname).2⟩

theorem ext_segments {path other : FolderPath} (h : path.segments = other.segments) : path = other := by
  cases path
  cases other
  cases h
  rfl

/-- Only the top level has an empty display text. -/
theorem toList_display_eq_nil_iff : path.display.toList = [] ↔ path = topLevel := by
  rw [toList_display, Text.joinWith_eq_nil_iff fun part hpart => (path.parts_segments part hpart).1,
    List.map_eq_nil_iff]
  constructor
  · exact fun h => ext_segments h
  · rintro rfl
    rfl

/-- The texts of a path: its display text, with at most one slash added in front and at most one behind. -/
def texts (path : FolderPath) : List String :=
  ["", "/"].flatMap fun lead => ["", "/"].map fun trail => lead ++ path.display ++ trail

theorem mem_texts : text ∈ path.texts ↔
    ∃ lead ∈ [[], ['/']], ∃ trail ∈ [[], ['/']], text.toList = lead ++ path.display.toList ++ trail := by
  simp [texts, ← String.toList_inj, or_assoc]

/-- The texts of a path are those that its display text is left of. -/
theorem mem_texts_iff : text ∈ path.texts ↔ trimSlashes text.toList = path.display.toList := by
  rw [mem_texts]
  constructor
  · rintro ⟨lead, hlead, trail, htrail, htext⟩
    rw [htext]
    refine trimSlashes_around ?_ ?_ hlead htrail
    · rw [toList_display]
      exact Text.head?_joinWith_ne path.parts_segments
    · rw [toList_display]
      exact Text.getLast?_joinWith_ne path.parts_segments
  · intro h
    rw [← h]
    exact exists_around_trimSlashes text.toList

/-! ## Reading -/

theorem ofSegments_eq_ok_iff : ofSegments segments = .ok path ↔ path.segments = segments := by
  unfold ofSegments
  split
  · next h =>
    constructor
    · rintro ⟨⟩
      rfl
    · exact fun e => congrArg Except.ok (ext_segments e.symm)
  · next h =>
    refine ⟨fun e => (by cases e), ?_⟩
    rintro rfl
    exact absurd path.named h

/-- Names are cut out of a text as they were joined. -/
theorem splitAt_eq_segments_iff (hcs : cs ≠ []) :
    path.segments = (Text.splitAt '/' cs).map String.ofList ↔ cs = path.display.toList := by
  rw [toList_display]
  constructor
  · intro h
    have hparts : path.segments.map String.toList = Text.splitAt '/' cs := by simp [h]
    rw [hparts, Text.joinWith_splitAt]
  · rintro rfl
    have hne : path.segments.map String.toList ≠ [] := by
      intro e
      rw [e] at hcs
      exact hcs rfl
    rw [Text.splitAt_joinWith hne fun part hpart => (path.parts_segments part hpart).2]
    simp

theorem parse_eq_ok_iff : parse text = .ok path ↔ text ∈ path.texts := by
  rw [mem_texts_iff]
  unfold parse
  by_cases hempty : trimSlashes text.toList = []
  · simp only [hempty, if_true]
    rw [Except.ok.injEq, eq_comm, ← toList_display_eq_nil_iff, eq_comm]
  · simp only [if_neg hempty]
    rw [← splitAt_eq_segments_iff hempty, ← ofSegments_eq_ok_iff]
    cases ofSegments ((Text.splitAt '/' (trimSlashes text.toList)).map String.ofList) <;> simp

/-- A text has one fault. -/
theorem parse_eq_error {e : Error} (h : parse text = .error e) :
    e = .invalidPath ("'" ++ text ++ "' contains an empty segment") := by
  unfold parse at h
  simp only at h
  split at h
  · cases h
  · split at h <;> cases h
    rfl

theorem parse_eq_error_iff {e : Error} : parse text = .error e ↔
    e = .invalidPath ("'" ++ text ++ "' contains an empty segment") ∧ ∀ path : FolderPath, text ∉ path.texts := by
  constructor
  · intro h
    refine ⟨parse_eq_error h, fun path hpath => ?_⟩
    rw [parse_eq_ok_iff.2 hpath] at h
    cases h
  · rintro ⟨rfl, hno⟩
    cases h : parse text with
    | ok path => exact absurd (parse_eq_ok_iff.1 h) (hno path)
    | error e => rw [parse_eq_error h]

theorem display_mem_texts (path : FolderPath) : path.display ∈ path.texts :=
  mem_texts.2 ⟨[], by simp, [], by simp, by simp⟩

theorem parse_display (path : FolderPath) : parse path.display = .ok path := parse_eq_ok_iff.2 path.display_mem_texts

/-! ## Going deeper -/

theorem append_eq_ok_iff :
    path.append name = .ok child ↔ IsItemName name ∧ child.segments = path.segments ++ [name] := by
  unfold append
  split
  · next h =>
    constructor
    · rintro ⟨⟩
      exact ⟨h, rfl⟩
    · exact fun hchild => congrArg Except.ok (ext_segments hchild.2.symm)
  · next h => exact ⟨fun e => (by cases e), fun hchild => absurd hchild.1 h⟩

theorem exists_append_iff : (∃ child, path.append name = .ok child) ↔ IsItemName name := by
  constructor
  · rintro ⟨child, h⟩
    exact (append_eq_ok_iff.1 h).1
  · intro h
    unfold append
    rw [dif_pos h]
    exact ⟨_, rfl⟩

theorem display_of_append (h : path.append name = .ok child) : child.display = path.displayItem name := by
  rw [← path.display_append, ← (append_eq_ok_iff.1 h).2]
  rfl

/-- **The texts of a path**, and no others, are read as it, among them its display text; any other text is a fault that
quotes all of it. So a path is known by its display text. Paths are made of item names only, and the path one name
deeper has the display text of the item. -/
theorem texts_read :
    (∀ (text : String) (path : FolderPath), parse text = .ok path ↔ text ∈ path.texts) ∧
    (∀ (text : String) (e : Error), parse text = .error e ↔
      e = .invalidPath ("'" ++ text ++ "' contains an empty segment") ∧ ∀ path : FolderPath, text ∉ path.texts) ∧
    (∀ path : FolderPath, parse path.display = .ok path) ∧
    (∀ path other : FolderPath, path.display = other.display ↔ path = other) ∧
    (∀ segments : List String, (∃ path, ofSegments segments = .ok path ∧ path.segments = segments) ↔
      ∀ segment ∈ segments, IsItemName segment) ∧
    (∀ (path : FolderPath) (name : String), (∃ child, path.append name = .ok child) ↔ IsItemName name) ∧
    ∀ (path child : FolderPath) (name : String), path.append name = .ok child →
      child.segments = path.segments ++ [name] ∧ child.display = path.displayItem name ∧
        parse (path.displayItem name) = .ok child := by
  refine ⟨fun _ _ => parse_eq_ok_iff, fun _ _ => parse_eq_error_iff, parse_display, fun path other => ⟨fun h => ?_, ?_⟩,
    fun segments => ⟨?_, fun h => ⟨⟨segments, h⟩, dif_pos h, rfl⟩⟩, fun _ _ => exists_append_iff,
    fun path child name h => ⟨(append_eq_ok_iff.1 h).2, display_of_append h, ?_⟩⟩
  · have hread := path.parse_display
    rw [h, other.parse_display] at hread
    exact (Except.ok.inj hread).symm
  · rintro rfl
    rfl
  · rintro ⟨path, -, rfl⟩
    exact path.named
  · rw [← display_of_append h]
    exact child.parse_display

theorem texts_read_deeper :
    (FolderPath.mk ["team A"] (by decide)).append "a%2F+b" = .ok ⟨["team A", "a%2F+b"], by decide⟩ ∧
      parse "team A/a%2F+b" = .ok ⟨["team A", "a%2F+b"], by decide⟩ := by
  have h : (FolderPath.mk ["team A"] (by decide)).append "a%2F+b" = .ok ⟨["team A", "a%2F+b"], by decide⟩ := rfl
  exact ⟨h, (texts_read.2.2.2.2.2.2 _ _ _ h).2.2⟩

/-- Of three slashes one is left over, and with it an empty name on either side. -/
example : parse "//" = .ok topLevel ∧
    parse "///" = .error (.invalidPath "'///' contains an empty segment") ∧
    parse "//a" = .error (.invalidPath "'//a' contains an empty segment") := by
  decide +kernel

end FolderPath

end JobHierarchy
