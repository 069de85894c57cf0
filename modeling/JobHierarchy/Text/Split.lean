/-!
# Cutting text at a separator

`splitAt` cuts a list of characters at every separator and `joinWith` puts the separators back.
Both work on characters, so that laws about paths and URLs are laws about lists.
-/

namespace JobHierarchy.Text

/-- The parts between the separators: one more than there are separators. -/
def splitAt (sep : Char) : List Char → List (List Char)
  | [] => [[]]
  | c :: rest =>
    if c = sep then [] :: splitAt sep rest
    else match splitAt sep rest with
      | [] => [[c]]
      | part :: parts => (c :: part) :: parts

/-- The parts with one separator between neighbours. -/
def joinWith (sep : Char) : List (List Char) → List Char
  | [] => []
  | [part] => part
  | part :: parts => part ++ sep :: joinWith sep parts

theorem splitAt_ne_nil (sep : Char) (cs : List Char) : splitAt sep cs ≠ [] := by
  cases cs with
  | nil => simp [splitAt]
  | cons c rest =>
    simp only [splitAt]
    split
    · simp
    · split <;> simp

/-- Cutting loses nothing: joining the parts gives the text back. -/
theorem joinWith_splitAt (sep : Char) (cs : List Char) : joinWith sep (splitAt sep cs) = cs := by
  induction cs with
  | nil => rfl
  | cons c rest ih =>
    simp only [splitAt]
    split
    · next h =>
      subst h
      cases hs : splitAt c rest with
      | nil => exact absurd hs (splitAt_ne_nil c rest)
      | cons part parts => rw [hs] at ih; simp [joinWith, ih]
    · cases hs : splitAt sep rest with
      | nil => exact absurd hs (splitAt_ne_nil sep rest)
      | cons part parts =>
        rw [hs] at ih
        cases parts with
        | nil => simpa [joinWith] using ih
        | cons _ _ => simpa [joinWith] using ih

/-- The parts of a text, as strings. -/
def parts (sep : Char) (s : String) : List String :=
  (splitAt sep s.toList).map String.ofList

/-- The text with its first and last blank characters cut off, for a given notion of blank. -/
def trimBy (blank : Char → Bool) (cs : List Char) : List Char :=
  ((cs.dropWhile blank).reverse.dropWhile blank).reverse

/-- What follows `lead` in `cs`, if `cs` begins with it. -/
def after? : List Char → List Char → Option (List Char)
  | [], cs => some cs
  | _ :: _, [] => none
  | l :: lead, c :: cs => if l = c then after? lead cs else none

/-- The text before and after the first occurrence of `mark`. -/
def cutAt? (mark : List Char) : List Char → Option (List Char × List Char)
  | [] => if mark.isEmpty then some ([], []) else none
  | c :: cs =>
    match after? mark (c :: cs) with
    | some rest => some ([], rest)
    | none => (cutAt? mark cs).map fun (before, rest) => (c :: before, rest)

theorem length_after?_le {lead cs rest : List Char} (h : after? lead cs = some rest) :
    rest.length ≤ cs.length := by
  induction lead generalizing cs with
  | nil =>
    rw [after?] at h
    cases h
    exact Nat.le_refl _
  | cons l lead ih =>
    cases cs with
    | nil => cases h
    | cons c cs =>
      rw [after?] at h
      split at h
      · exact Nat.le_succ_of_le (ih h)
      · cases h

theorem length_cutAt?_le {mark cs before rest : List Char}
    (h : cutAt? mark cs = some (before, rest)) : rest.length ≤ cs.length := by
  induction cs generalizing before rest with
  | nil => simp [cutAt?] at h; simp [h.2]
  | cons c cs ih =>
    simp only [cutAt?] at h
    split at h
    · next hr =>
      cases h
      exact length_after?_le hr
    · obtain ⟨⟨front, behind⟩, hcut, h⟩ := Option.map_eq_some_iff.1 h
      cases h
      exact Nat.le_succ_of_le (ih hcut)

end JobHierarchy.Text
