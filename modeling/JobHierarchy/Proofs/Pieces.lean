import JobHierarchy.Proofs.Addresses
import JobHierarchy.Template.Substitute
import Mathlib.Data.Set.Basic
/-!
# Templates in pieces

A template is text with keys in it that are filled in. Which parts of it are text and which are keys is settled by the
template and by which keys are known (`TemplatePiece.cut`), before any value is looked at. So values are opaque: what
one holds is not read again and does not run together with the text around it (`substitute_pieces`).
-/

namespace JobHierarchy

/-! ## Cutting at a mark -/

namespace Text

/-- What was cut goes together again. -/
theorem eq_of_cutAt? {mark cs before rest : List Char} (h : cutAt? mark cs = some (before, rest)) :
    cs = before ++ mark ++ rest := by
  induction cs generalizing before with
  | nil =>
    rw [cutAt?] at h
    split at h
    · next hmark =>
      cases h
      rw [List.isEmpty_iff.1 hmark]
      rfl
    · cases h
  | cons c cs ih =>
    rw [cutAt?] at h
    split at h
    · next rest' hafter =>
      cases h
      exact after?_eq_some_iff.1 hafter
    · obtain ⟨⟨before', rest'⟩, hcut, heq⟩ := Option.map_eq_some_iff.1 h
      cases heq
      rw [ih hcut]
      rfl

/-- A text is cut at the first place where the mark can begin. -/
theorem cutAt?_append {m : Char} {mark : List Char} (rest : List Char) : ∀ {before : List Char}, m ∉ before →
    cutAt? (m :: mark) (before ++ (m :: mark ++ rest)) = some (before, rest)
  | [], _ => by
    have hafter : after? (m :: mark) (m :: (mark ++ rest)) = some rest := after?_append (m :: mark) rest
    rw [List.nil_append, List.cons_append, cutAt?, hafter]
  | c :: before, h => by
    obtain ⟨hc, hbefore⟩ := not_or.1 (fun hm => h (List.mem_cons.2 hm))
    rw [List.cons_append, cutAt?, after?, if_neg hc, cutAt?_append rest hbefore]
    rfl

end Text

/-! ## Known keys -/

/-- A key between its braces, as it stands in a template. -/
def braced (name : String) : List Char := openBraces ++ name.toList ++ closeBraces

/-- The known key that stands, with its closing braces, at the beginning of `cs`, and what follows it. -/
def knownKey? (known : String → Bool) (cs : List Char) : Option (String × List Char) :=
  (Text.cutAt? closeBraces cs).bind fun (name, rest) =>
    if known (String.ofList name) then some (String.ofList name, rest) else none

def TemplateParams.knows (params : TemplateParams) (name : String) : Bool := (params.get? name).isSome

section
variable {known : String → Bool} {params : TemplateParams} {cs rest : List Char} {name : String}

theorem knownKey?_eq_some_iff : knownKey? known cs = some (name, rest) ↔
    Text.cutAt? closeBraces cs = some (name.toList, rest) ∧ known name = true := by
  rw [knownKey?, Option.bind_eq_some_iff]
  constructor
  · rintro ⟨⟨name', rest'⟩, hcut, h⟩
    obtain ⟨hknown, h⟩ := Option.ite_none_right_eq_some.1 h
    cases h
    exact ⟨by rw [hcut, String.toList_ofList], hknown⟩
  · rintro ⟨hcut, hknown⟩
    refine ⟨_, hcut, ?_⟩
    simp only [String.ofList_toList]
    rw [if_pos hknown]

theorem length_knownKey?_le (h : knownKey? known cs = some (name, rest)) : rest.length ≤ cs.length :=
  Text.length_cutAt?_le (knownKey?_eq_some_iff.1 h).1

/-- The key and the rest are all that stands there. -/
theorem eq_braced_append (h : knownKey? known cs = some (name, rest)) : openBraces ++ cs = braced name ++ rest := by
  rw [Text.eq_of_cutAt? (knownKey?_eq_some_iff.1 h).1, braced]
  simp only [List.append_assoc]

/-! ### One step of a substitution -/

/-- At a known key: its value, and on behind its closing braces. -/
theorem substituteChars_known (h : knownKey? params.knows cs = some (name, rest)) :
    substituteChars params ('\x7b' :: '\x7b' :: cs) =
      ((params.get? name).getD "").toList ++ substituteChars params rest := by
  obtain ⟨hcut, hknown⟩ := knownKey?_eq_some_iff.1 h
  obtain ⟨value, hvalue⟩ := Option.isSome_iff_exists.1 hknown
  have hplaceholder : placeholder? params cs = some (value.toList, ⟨rest, Text.length_cutAt?_le hcut⟩) := by
    unfold placeholder?
    split
    · next hnone => cases hnone.symm.trans hcut
    · next name' rest' hsome =>
      cases hsome.symm.trans hcut
      rw [String.ofList_toList, hvalue, Option.map_some]
  rw [substituteChars, hplaceholder, hvalue]
  rfl

/-- At other opening braces: the braces, and on right behind them. -/
theorem substituteChars_unknown (h : knownKey? params.knows cs = none) :
    substituteChars params ('\x7b' :: '\x7b' :: cs) = '\x7b' :: '\x7b' :: substituteChars params cs := by
  have hplaceholder : placeholder? params cs = none := by
    unfold placeholder?
    split
    · rfl
    · next name' rest' hcut =>
      have hvalue : ¬ params.knows (String.ofList name') = true := fun hknown => by
        cases h.symm.trans (knownKey?_eq_some_iff.2 ⟨by rw [hcut, String.toList_ofList], hknown⟩)
      rw [Option.map_eq_none_iff]
      exact Option.not_isSome_iff_eq_none.1 hvalue
  rw [substituteChars, hplaceholder]

/-- Anything but two opening braces stays. -/
theorem substituteChars_cons {c : Char} (h : ∀ rest, c = '\x7b' → cs = '\x7b' :: rest → False) :
    substituteChars params (c :: cs) = c :: substituteChars params cs := by
  rw [substituteChars]
  exact h

end

/-! ## Pieces -/

/-- A part of a template: text that stays, or a key between its braces. -/
inductive TemplatePiece where
  | text (s : String)
  | key (name : String)
  deriving DecidableEq, Repr

namespace TemplatePiece

/-- The piece as it stands in a template. -/
def written : TemplatePiece → String
  | .text s => s
  | .key name => String.ofList (braced name)

/-- The piece with the value of its key. -/
def filled (params : TemplateParams) : TemplatePiece → String
  | .text s => s
  | .key name => (params.get? name).getD ""

/-- The pieces of a template, when some keys are known. -/
def cut (known : String → Bool) : List Char → List TemplatePiece
  | [] => []
  | '\x7b' :: '\x7b' :: cs =>
    match _h : knownKey? known cs with
    | some (name, rest) => .key name :: cut known rest
    | none => .text (String.ofList openBraces) :: cut known cs
  | c :: cs => .text (String.singleton c) :: cut known cs
termination_by cs => cs.length
decreasing_by
  · have := length_knownKey?_le _h
    simp only [List.length_cons]
    omega
  all_goals simp +arith

/-- Nothing of a template is lost or doubled. -/
theorem written_cut (known : String → Bool) (cs : List Char) :
    (String.join ((cut known cs).map written)).toList = cs := by
  fun_induction cut known cs with
  | case1 => rfl
  | case2 cs name rest hkey ih =>
    rw [List.map_cons, String.join_cons, String.toList_append, ih, written, String.toList_ofList,
      ← eq_braced_append hkey]
    rfl
  | case3 cs hkey ih =>
    rw [List.map_cons, String.join_cons, String.toList_append, ih]
    rfl
  | case4 c cs hno ih =>
    rw [List.map_cons, String.join_cons, String.toList_append, ih]
    simp [written]

/-- The keys that are filled in are known. -/
theorem known_of_mem_cut {known : String → Bool} {cs : List Char} {name : String} (h : .key name ∈ cut known cs) :
    known name = true := by
  fun_induction cut known cs with
  | case1 => cases h
  | case2 cs name' rest hkey ih =>
    rcases List.mem_cons.1 h with heq | h
    · cases heq
      exact (knownKey?_eq_some_iff.1 hkey).2
    · exact ih h
  | case3 cs hkey ih => exact ih ((List.mem_cons.1 h).resolve_left (by simp))
  | case4 c cs hno ih => exact ih ((List.mem_cons.1 h).resolve_left (by simp))

/-- Substitution fills in the pieces, whatever the values are. -/
theorem filled_cut (params : TemplateParams) (cs : List Char) :
    (String.join ((cut params.knows cs).map (filled params))).toList = substituteChars params cs := by
  fun_induction cut params.knows cs with
  | case1 => rw [substituteChars]; rfl
  | case2 cs name rest hkey ih =>
    rw [List.map_cons, String.join_cons, String.toList_append, ih, filled, substituteChars_known hkey]
  | case3 cs hkey ih =>
    rw [List.map_cons, String.join_cons, String.toList_append, ih, substituteChars_unknown hkey]
    simp [filled, openBraces]
  | case4 c cs hno ih =>
    rw [List.map_cons, String.join_cons, String.toList_append, ih, substituteChars_cons hno]
    simp [filled]

/-- Text that opens no key, or a known key that closes where it ends. -/
def Plain (keys : Set String) : TemplatePiece → Prop
  | .text s => '\x7b' ∉ s.toList
  | .key name => name ∈ keys ∧ '\x7d' ∉ name.toList

/-- Text that opens no key stays. -/
theorem substituteChars_text {params : TemplateParams} (rest : List Char) : ∀ {cs : List Char}, '\x7b' ∉ cs →
    substituteChars params (cs ++ rest) = cs ++ substituteChars params rest
  | [], _ => rfl
  | c :: cs, h => by
    obtain ⟨hc, hcs⟩ := not_or.1 (fun hm => h (List.mem_cons.2 hm))
    rw [List.cons_append, substituteChars_cons fun _ heq _ => hc heq.symm, substituteChars_text rest hcs,
      List.cons_append]

/-- Substitution fills in every key of a template that was put together plainly. -/
theorem filled_plain {params : TemplateParams} {keys : Set String}
    (hkeys : ∀ name, name ∈ keys ↔ (params.get? name).isSome) {parts : List TemplatePiece}
    (h : ∀ part ∈ parts, part.Plain keys) :
    substituteChars params (String.join (parts.map written)).toList =
      (String.join (parts.map (filled params))).toList := by
  induction parts with
  | nil => rw [List.map_nil, String.join_nil, String.toList_empty, substituteChars]; rfl
  | cons part parts ih =>
    have hpart : part.Plain keys := h part List.mem_cons_self
    have ih := ih fun part' h' => h part' (List.mem_cons_of_mem _ h')
    rw [List.map_cons, List.map_cons, String.join_cons, String.join_cons, String.toList_append, String.toList_append,
      ← ih]
    cases part with
    | text s => exact substituteChars_text _ hpart
    | key name =>
      obtain ⟨hname, hclosing⟩ := hpart
      have hkey : knownKey? params.knows (name.toList ++ (closeBraces ++ (String.join (parts.map written)).toList)) =
          some (name, (String.join (parts.map written)).toList) :=
        knownKey?_eq_some_iff.2 ⟨Text.cutAt?_append _ hclosing, (hkeys name).1 hname⟩
      rw [filled, ← substituteChars_known hkey]
      simp [written, braced, openBraces]

end TemplatePiece

/-- **Values are opaque.** A template comes apart into text and keys in one way for all values that the known keys can
have: written back, the pieces are the template, and filled in, they are what substitution gives. Where a template was
put together from plain text and known keys, just these keys are filled in. -/
theorem substitute_pieces (template : String) (keys : Set String) :
    ∃ pieces : List TemplatePiece, (∀ name, .key name ∈ pieces → name ∈ keys) ∧
      String.join (pieces.map TemplatePiece.written) = template ∧
      ∀ params : TemplateParams, (∀ name, name ∈ keys ↔ (params.get? name).isSome) →
        substitute template params = String.join (pieces.map (TemplatePiece.filled params)) ∧
          ∀ parts : List TemplatePiece, (∀ part ∈ parts, part.Plain keys) →
            String.join (parts.map TemplatePiece.written) = template →
            substitute template params = String.join (parts.map (TemplatePiece.filled params)) := by
  classical
  let known : String → Bool := fun name => name ∈ keys
  refine ⟨TemplatePiece.cut known template.toList, fun name h => ?_, ?_, fun params h => ⟨?_, ?_⟩⟩
  · exact of_decide_eq_true (TemplatePiece.known_of_mem_cut h)
  · exact String.toList_inj.1 (TemplatePiece.written_cut known _)
  · have hknown : known = params.knows := by
      funext name
      rw [Bool.eq_iff_iff, decide_eq_true_iff, h]
      rfl
    rw [hknown, substitute, ← TemplatePiece.filled_cut, String.ofList_toList]
  · rintro parts hplain rfl
    rw [substitute, TemplatePiece.filled_plain h hplain, String.ofList_toList]

/-- Two values that look like each other's placeholders. -/
def swapped : TemplateParams := [("a", "\x7b\x7bb\x7d\x7d"), ("b", "\x7b\x7ba\x7d\x7d")]

theorem substitute_pieces_swapped :
    substitute "\x7b\x7bb\x7d\x7d-\x7b\x7ba\x7d\x7d" swapped = "\x7b\x7ba\x7d\x7d-\x7b\x7bb\x7d\x7d" := by
  obtain ⟨pieces, -, -, hfilled⟩ := substitute_pieces "\x7b\x7bb\x7d\x7d-\x7b\x7ba\x7d\x7d"
    {name | (swapped.get? name).isSome}
  have hplain : ∀ part ∈ [.key "b", .text "-", .key "a"],
      TemplatePiece.Plain {name | (swapped.get? name).isSome} part := by
    have htext : '\x7b' ∉ "-".toList := by decide
    exact List.forall_mem_cons.2 ⟨⟨rfl, by decide⟩, List.forall_mem_cons.2 ⟨htext,
      List.forall_mem_singleton.2 ⟨rfl, by decide⟩⟩⟩
  exact ((hfilled swapped fun _ => Iff.rfl).2 _ hplain (by decide)).trans (by decide)

end JobHierarchy
