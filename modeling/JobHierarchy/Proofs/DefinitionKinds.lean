import JobHierarchy.Memory.Server
import JobHierarchy.Proofs.Pieces
import JobHierarchy.Template.BuiltIn
import Mathlib.Data.List.Infix
/-!
# What the built-in definitions make

The server tells a job that holds jobs from a plain one by its definition: it looks for a mark, anywhere in the text.
The built-in multibranch definition has the mark from the start. The other two for jobs have it exactly if the value
that is filled in has it: their own text does not even have the capital letter in it, and the brackets around the value
keep the mark from beginning in front of it or ending behind it (`TemplateKind.kindOfDefinition_builtIn`).
-/

namespace JobHierarchy

/-! ## Looking for a mark -/

namespace Text

/-- A text can be cut at a mark if the mark stands anywhere in it. -/
theorem cutAt?_isSome_iff {mark : List Char} : ∀ {cs : List Char}, (cutAt? mark cs).isSome = true ↔ mark <:+: cs
  | [] => by
    rw [cutAt?, List.infix_nil]
    cases mark <;> simp
  | c :: cs => by
    rw [List.infix_cons_iff, ← cutAt?_isSome_iff, ← after?_isSome_iff, cutAt?]
    cases after? mark (c :: cs) <;> simp

variable {sep : Char} {mark front back : List Char}

theorem eq_nil_of_prefix_cons (h : sep ∉ mark) (hpre : mark <+: sep :: back) : mark = [] := by
  rcases List.prefix_cons_iff.1 hpre with rfl | ⟨rest, rfl, -⟩
  · rfl
  · exact absurd List.mem_cons_self h

/-- A mark is not found across a character that it does not have. -/
theorem infix_cut_iff (h : sep ∉ mark) : mark <:+: front ++ sep :: back ↔ mark <:+: front ∨ mark <:+: back := by
  rw [List.infix_append_iff, List.infix_cons_iff]
  constructor
  · rintro (hfront | (hpre | hback) | ⟨first, last, rfl, hsuffix, hpre⟩)
    · exact .inl hfront
    · rw [eq_nil_of_prefix_cons h hpre]
      exact .inl List.nil_infix
    · exact .inr hback
    · rw [eq_nil_of_prefix_cons (fun hm => h (List.mem_append_right _ hm)) hpre, List.append_nil]
      exact .inl hsuffix.isInfix
  · rintro (hfront | hback)
    · exact .inl hfront
    · exact .inr (.inl (.inr hback))

theorem toList_join_lines (lines : List String) :
    (String.join (lines.map (· ++ "\n"))).toList = lines.flatMap fun line => line.toList ++ ['\n'] := by
  rw [String.toList_join, List.flatMap_map]
  simp only [String.toList_append, String.reduceToList]

end Text

namespace Memory.Server

theorem kindOfDefinition_eq_container_iff {definition : String} :
    kindOfDefinition definition = .container ↔ containerMark <:+: definition.toList := by
  rw [← Text.cutAt?_isSome_iff, kindOfDefinition]
  split <;> simp [*]

end Memory.Server

open Memory.Server

/-! ## Text around one key -/

/-- The value of the primary parameter of a kind has the mark in it. -/
def TemplateParams.Marked (params : TemplateParams) (kind : TemplateKind) : Prop :=
  ∃ value ∈ kind.primaryParam?.bind params.get?, containerMark <:+: value.toList

instance (params : TemplateParams) (kind : TemplateKind) : Decidable (params.Marked kind) :=
  inferInstanceAs (Decidable (∃ value ∈ kind.primaryParam?.bind params.get?, containerMark <:+: value.toList))

/-- What comes to stand in the place of a key: its value, or the key as it was. -/
def TemplateParams.inPlaceOf (params : TemplateParams) (name : String) : List Char :=
  ((params.get? name).map String.toList).getD (braced name)

/-- Text that opens no key and does not have the capital of the mark. -/
def Neutral (cs : List Char) : Prop := ∀ c ∈ cs, c ≠ '\x7b' ∧ c ≠ 'P'

-- given by name: a search may come upon the instance that goes through all characters there are
instance (cs : List Char) : Decidable (Neutral cs) := List.decidableBAll (fun c => c ≠ '\x7b' ∧ c ≠ 'P') cs

section
variable {params : TemplateParams} {front back cs cs' : List Char} {name : String}

theorem Neutral.opening_notMem (h : Neutral cs) : '\x7b' ∉ cs := fun hm => (h _ hm).1 rfl

theorem Neutral.capital_notMem (h : Neutral cs) : 'P' ∉ cs := fun hm => (h _ hm).2 rfl

theorem neutral_append : Neutral (cs ++ cs') ↔ Neutral cs ∧ Neutral cs' := List.forall_mem_append

/-- For texts that are written out: their characters are, too. -/
theorem neutral_toList {text : String} (htext : text = String.ofList cs) (h : Neutral cs) : Neutral text.toList := by
  rwa [htext, String.toList_ofList]

theorem neutral_lines {lines : List String} (h : ∀ line ∈ lines, Neutral line.toList) :
    Neutral (lines.flatMap fun line => line.toList ++ ['\n']) := by
  induction lines with
  | nil => decide
  | cons line lines ih =>
    obtain ⟨hline, hlines⟩ := List.forall_mem_cons.1 h
    exact neutral_append.2 ⟨neutral_append.2 ⟨hline, by decide⟩, ih hlines⟩

theorem not_marked (h : 'P' ∉ cs) : ¬ containerMark <:+: cs := by
  intro hmark
  have hcapital : 'P' ∈ containerMark := by decide
  exact h (hmark.subset hcapital)

/-- Text that opens no key stays as it is. -/
theorem substituteChars_plain (h : '\x7b' ∉ cs) : substituteChars params cs = cs := by
  have htext : substituteChars params (cs ++ []) = cs ++ substituteChars params [] :=
    TemplatePiece.substituteChars_text [] h
  rwa [List.append_nil, substituteChars, List.append_nil] at htext

/-- One key in text that opens none. -/
theorem substituteChars_around (hfront : '\x7b' ∉ front) (hopening : '\x7b' ∉ name.toList)
    (hclosing : '\x7d' ∉ name.toList) (hback : '\x7b' ∉ back) :
    substituteChars params (front ++ (braced name ++ back)) = front ++ (params.inPlaceOf name ++ back) := by
  have hcut : Text.cutAt? closeBraces (name.toList ++ (closeBraces ++ back)) = some (name.toList, back) :=
    Text.cutAt?_append back hclosing
  have hbraced : braced name ++ back = '\x7b' :: '\x7b' :: (name.toList ++ (closeBraces ++ back)) := by
    simp [braced, openBraces]
  rw [TemplatePiece.substituteChars_text _ hfront, hbraced, TemplateParams.inPlaceOf]
  cases hvalue : params.get? name with
  | some value =>
    have hkey : knownKey? params.knows (name.toList ++ (closeBraces ++ back)) = some (name, back) :=
      knownKey?_eq_some_iff.2 ⟨hcut, by rw [TemplateParams.knows, hvalue]; rfl⟩
    rw [substituteChars_known hkey, substituteChars_plain hback, hvalue]
    rfl
  | none =>
    have hkey : knownKey? params.knows (name.toList ++ (closeBraces ++ back)) = none := by
      rw [knownKey?, hcut]
      simp [TemplateParams.knows, hvalue]
    have hrest : '\x7b' ∉ name.toList ++ (closeBraces ++ back) := by
      simp [hopening, hback, closeBraces]
    rw [substituteChars_unknown hkey, substituteChars_plain hrest, ← hbraced]
    rfl

/-- A key between brackets, in neutral text: what comes to stand there decides. -/
theorem kindOfDefinition_around {template : String}
    (htemplate : template.toList = front ++ '>' :: (braced name ++ '<' :: back)) (hname : Neutral name.toList)
    (hclosing : '\x7d' ∉ name.toList) (hfront : Neutral front) (hback : Neutral back) :
    kindOfDefinition (substitute template params) = .container ↔ containerMark <:+: params.inPlaceOf name := by
  have hbracket : Neutral ['>'] := by decide
  have hbracket' : Neutral ['<'] := by decide
  have hbefore : '\x7b' ∉ front ++ ['>'] := (neutral_append.2 ⟨hfront, hbracket⟩).opening_notMem
  have hafter : '\x7b' ∉ '<' :: back := (neutral_append.2 ⟨hbracket', hback⟩).opening_notMem
  have hfilled : substituteChars params template.toList = front ++ '>' :: (params.inPlaceOf name ++ '<' :: back) := by
    have haround : substituteChars params (front ++ ['>'] ++ (braced name ++ '<' :: back)) = _ :=
      substituteChars_around hbefore hname.opening_notMem hclosing hafter
    rw [htemplate, List.append_cons, haround, ← List.append_cons]
  rw [kindOfDefinition_eq_container_iff, substitute, String.toList_ofList, hfilled, Text.infix_cut_iff (by decide),
    Text.infix_cut_iff (by decide), or_iff_right (not_marked hfront.capital_notMem),
    or_iff_left (not_marked hback.capital_notMem)]

theorem mark_inPlaceOf_iff (h : Neutral name.toList) :
    containerMark <:+: params.inPlaceOf name ↔ ∃ value ∈ params.get? name, containerMark <:+: value.toList := by
  have hbraced : 'P' ∉ braced name := by simp [braced, openBraces, closeBraces, h.capital_notMem]
  rw [TemplateParams.inPlaceOf]
  cases params.get? name <;> simp [not_marked hbraced]

end

/-! ## The built-in definitions -/

namespace TemplateKind

/-- Neutral lines around the one with the key. -/
theorem kindOfDefinition_lines {params : TemplateParams} {lines before after : List String} {line name : String}
    {opening closing : List Char} (hlines : lines = before ++ line :: after)
    (hline : line.toList = opening ++ '>' :: (braced name ++ '<' :: closing))
    (hname : Neutral name.toList) (hclosing : '\x7d' ∉ name.toList) (haround : Neutral opening ∧ Neutral closing)
    (hbefore : ∀ line ∈ before, Neutral line.toList) (hafter : ∀ line ∈ after, Neutral line.toList) :
    kindOfDefinition (substitute (String.join (lines.map (· ++ "\n"))) params) = .container ↔
      ∃ value ∈ params.get? name, containerMark <:+: value.toList := by
  have hbreak : Neutral ['\n'] := by decide
  have hfront := neutral_append.2 ⟨neutral_lines hbefore, haround.1⟩
  have hback := neutral_append.2 ⟨neutral_append.2 ⟨haround.2, hbreak⟩, neutral_lines hafter⟩
  rw [← mark_inPlaceOf_iff hname]
  refine kindOfDefinition_around ?_ hname hclosing hfront hback
  rw [Text.toList_join_lines, hlines, List.flatMap_append, List.flatMap_cons, hline]
  simp

theorem kindOfDefinition_pipeline (params : TemplateParams) :
    kindOfDefinition (substitute pipeline.builtIn params) = .container ↔ params.Marked .pipeline := by
  have hlines : pipelineLines =
      pipelineLines.take 6 ++ "    <script>\x7b\x7bscript\x7d\x7d</script>" :: pipelineLines.drop 7 := rfl
  have hline : "    <script>\x7b\x7bscript\x7d\x7d</script>".toList =
      "    <script".toList ++ '>' :: (braced "script" ++ '<' :: "/script>".toList) := by decide +kernel
  have hbefore : ∀ line ∈ pipelineLines.take 6, Neutral line.toList := by
    repeat refine List.forall_mem_cons.2 ⟨neutral_toList rfl (by decide +kernel), ?_⟩
    exact List.forall_mem_nil _
  have hafter : ∀ line ∈ pipelineLines.drop 7, Neutral line.toList := by
    repeat refine List.forall_mem_cons.2 ⟨neutral_toList rfl (by decide +kernel), ?_⟩
    exact List.forall_mem_nil _
  exact kindOfDefinition_lines hlines hline (by decide) (by decide) (by decide) hbefore hafter

theorem kindOfDefinition_freestyle (params : TemplateParams) :
    kindOfDefinition (substitute freestyle.builtIn params) = .container ↔ params.Marked .freestyle := by
  have hlines : freestyleLines =
      freestyleLines.take 12 ++ "      <command>\x7b\x7bcommand\x7d\x7d</command>" :: freestyleLines.drop 13 := rfl
  have hline : "      <command>\x7b\x7bcommand\x7d\x7d</command>".toList =
      "      <command".toList ++ '>' :: (braced "command" ++ '<' :: "/command>".toList) := by decide +kernel
  have hbefore : ∀ line ∈ freestyleLines.take 12, Neutral line.toList := by
    repeat refine List.forall_mem_cons.2 ⟨neutral_toList rfl (by decide +kernel), ?_⟩
    exact List.forall_mem_nil _
  have hafter : ∀ line ∈ freestyleLines.drop 13, Neutral line.toList := by
    repeat refine List.forall_mem_cons.2 ⟨neutral_toList rfl (by decide +kernel), ?_⟩
    exact List.forall_mem_nil _
  exact kindOfDefinition_lines hlines hline (by decide) (by decide) (by decide) hbefore hafter

/-- The mark stands in front of the key, in the second line. -/
theorem kindOfDefinition_multibranch (params : TemplateParams) :
    kindOfDefinition (substitute multibranch.builtIn params) = .container := by
  obtain ⟨first, second, rest, hlines, hfirst, hsecond, hmark⟩ : ∃ first second rest,
      multibranchLines = String.ofList first :: String.ofList second :: rest ∧ '\x7b' ∉ first ∧ '\x7b' ∉ second ∧
        containerMark <:+: second :=
    ⟨_, _, _, rfl, by decide +kernel, by decide +kernel, by decide +kernel⟩
  have hbuiltIn : multibranch.builtIn.toList =
      first ++ ['\n'] ++ second ++ '\n' :: rest.flatMap fun line => line.toList ++ ['\n'] := by
    refine (Text.toList_join_lines multibranchLines).trans ?_
    simp [hlines]
  have hopening : '\x7b' ∉ first ++ ['\n'] ++ second := by simp [hfirst, hsecond]
  rw [kindOfDefinition_eq_container_iff, substitute, String.toList_ofList, hbuiltIn,
    TemplatePiece.substituteChars_text _ hopening, List.append_assoc]
  exact hmark.trans (List.infix_append' _ _ _)

/-- **What a built-in definition makes.** A job that holds jobs comes from the multibranch definition, whatever is
filled in, and from the two others exactly if their value has the mark somewhere in it. -/
theorem kindOfDefinition_builtIn {kind : TemplateKind} (hk : kind ≠ .folder) (params : TemplateParams) :
    kindOfDefinition (substitute kind.builtIn params) = .container ↔ kind = .multibranch ∨ params.Marked kind := by
  cases kind with
  | pipeline => simp [kindOfDefinition_pipeline]
  | multibranch => simp [kindOfDefinition_multibranch]
  | freestyle => simp [kindOfDefinition_freestyle]
  | folder => exact absurd rfl hk

end TemplateKind

end JobHierarchy
