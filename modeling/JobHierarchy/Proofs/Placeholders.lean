import JobHierarchy.Proofs.Pieces
import Mathlib.Algebra.Ring.Parity
import Mathlib.Data.List.DropRight
/-!
# Placeholders in their places

Where no key holds a brace, no two placeholders of a template overlap (`TemplateParams.ahead?_inside`). So they can be
filled in all at once, each where it stands, and there is no need to say in which order (`TemplateParams.fillAt`).

A substitution goes through the template two braces at a time, so it comes past a placeholder that stands behind an odd
number of opening braces. All others it fills in (`substitute_fills_evenly`). That is not every one
(`not_all_filled`): the second brace of three opens a placeholder too.
-/

namespace JobHierarchy

namespace TemplateParams

/-! ## Filling in at once -/

/-- No key holds a brace. -/
def BraceFree (params : TemplateParams) : Prop := ∀ p ∈ params, '\x7b' ∉ p.1.toList ∧ '\x7d' ∉ p.1.toList

instance (params : TemplateParams) : Decidable params.BraceFree :=
  inferInstanceAs (Decidable (∀ p ∈ params, '\x7b' ∉ p.1.toList ∧ '\x7d' ∉ p.1.toList))

/-- The parameter whose placeholder a text begins with. -/
def ahead? (params : TemplateParams) (cs : List Char) : Option (String × String) :=
  params.find? fun p => (braced p.1).isPrefixOf cs

/-- The parameter whose placeholder stands at a position of a text, if the position is one of those picked. -/
def placed? (params : TemplateParams) (picked : Nat → Bool) (cs : List Char) (i : Nat) : Option (String × String) :=
  if picked i then params.ahead? (cs.drop i) else none

/-- A placeholder that stands in front of a position reaches over it. -/
def covers (params : TemplateParams) (picked : Nat → Bool) (cs : List Char) (i : Nat) : Bool :=
  (List.range i).any fun j => (params.placed? picked cs j).any fun p => i < j + (braced p.1).length

/-- What becomes of a position: the value of the placeholder that stands there, nothing inside a placeholder, and else
the character. -/
def becomes (params : TemplateParams) (picked : Nat → Bool) (cs : List Char) (i : Nat) : List Char :=
  match params.placed? picked cs i with
  | some p => p.2.toList
  | none => if params.covers picked cs i then [] else cs[i]?.toList

/-- The text with values for the placeholders at the positions picked. -/
def fillAt (params : TemplateParams) (picked : Nat → Bool) (cs : List Char) : List Char :=
  (List.range cs.length).flatMap (params.becomes picked cs)

section
variable {params : TemplateParams} {picked : Nat → Bool} {front cs rest : List Char} {name value : String}

theorem fillAt_congr {picked' : Nat → Bool} (h : ∀ i, params.placed? picked cs i = params.placed? picked' cs i) :
    params.fillAt picked cs = params.fillAt picked' cs := by
  have hcovers : params.covers picked cs = params.covers picked' cs := by
    funext i
    simp only [covers, h]
  unfold fillAt
  congr 1
  funext i
  rw [becomes, becomes, h, hcovers]

/-! ### Text in front -/

theorem placed?_append (i : Nat) : params.placed? picked (front ++ cs) (front.length + i) =
    params.placed? (fun i => picked (front.length + i)) cs i := by
  rw [placed?, placed?, List.drop_length_add_append]

theorem covers_append (i : Nat) (h : ∀ j < front.length, ∀ p, params.placed? picked (front ++ cs) j = some p →
    j + (braced p.1).length ≤ front.length) :
    params.covers picked (front ++ cs) (front.length + i) =
      params.covers (fun i => picked (front.length + i)) cs i := by
  have hfront : ((List.range front.length).any fun j => (params.placed? picked (front ++ cs) j).any fun p =>
      front.length + i < j + (braced p.1).length) = false := by
    rw [List.any_eq_false]
    intro j hj
    cases hp : params.placed? picked (front ++ cs) j with
    | none => simp
    | some p =>
      have := h j (List.mem_range.1 hj) p hp
      simp only [Option.any_some, decide_eq_true_eq]
      omega
  unfold covers
  rw [List.range_add, List.any_append, hfront, Bool.false_or, List.any_map]
  congr 1
  funext j
  simp only [Function.comp_apply, placed?_append, Nat.add_assoc, Nat.add_lt_add_iff_left]

/-- Where no placeholder reaches over the end of `front`, what comes behind is filled in by itself. -/
theorem fillAt_append (h : ∀ j < front.length, ∀ p, params.placed? picked (front ++ cs) j = some p →
    j + (braced p.1).length ≤ front.length) :
    params.fillAt picked (front ++ cs) = (List.range front.length).flatMap (params.becomes picked (front ++ cs)) ++
      params.fillAt (fun i => picked (front.length + i)) cs := by
  unfold fillAt
  rw [List.length_append, List.range_add, List.flatMap_append, List.flatMap_map]
  congr 1
  congr 1
  funext i
  unfold becomes
  rw [placed?_append, covers_append i h, List.getElem?_append_right (Nat.le_add_right _ _), Nat.add_sub_cancel_left]

/-- Where no placeholder stands, the character stays. -/
theorem fillAt_cons {c : Char} (h : params.placed? picked (c :: cs) 0 = none) :
    params.fillAt picked (c :: cs) = c :: params.fillAt (fun i => picked (1 + i)) cs := by
  rw [← List.singleton_append, fillAt_append]
  · simp [becomes, h, covers]
  · intro j hj p hp
    obtain rfl : j = 0 := by simpa using hj
    cases h.symm.trans hp

/-- A placeholder becomes its value, if no other begins inside it. -/
theorem fillAt_braced (hname : params.placed? picked (braced name ++ rest) 0 = some (name, value))
    (hinside : ∀ j, 0 < j → j < (braced name).length → params.placed? picked (braced name ++ rest) j = none) :
    params.fillAt picked (braced name ++ rest) =
      value.toList ++ params.fillAt (fun i => picked ((braced name).length + i)) rest := by
  obtain ⟨n, hn⟩ : ∃ n, (braced name).length = n + 1 :=
    ⟨name.toList.length + 3, by simp [braced, openBraces, closeBraces]⟩
  have hfirst : params.becomes picked (braced name ++ rest) 0 = value.toList := by rw [becomes, hname]
  have hothers : ∀ i ∈ List.range n, params.becomes picked (braced name ++ rest) (i + 1) = [] := by
    intro i hi
    have hlt : i + 1 < (braced name).length := by
      rw [hn]
      exact Nat.succ_lt_succ (List.mem_range.1 hi)
    have hcovers : params.covers picked (braced name ++ rest) (i + 1) = true :=
      List.any_eq_true.2 ⟨0, by simp, by simpa [hname] using hlt⟩
    rw [becomes, hinside (i + 1) (Nat.succ_pos i) hlt, hcovers]
    rfl
  rw [fillAt_append]
  · rw [hn, List.range_succ_eq_map, List.flatMap_cons, List.flatMap_map, hfirst, List.flatMap_eq_nil_iff.2 hothers,
      List.append_nil]
  · intro j hj p hp
    rcases Nat.eq_zero_or_pos j with rfl | h0
    · cases hname.symm.trans hp
      simp
    · cases (hinside j h0 hj).symm.trans hp

/-! ### Keys without braces -/

theorem ahead?_eq_none_of_ne (h : ∀ rest, cs ≠ '\x7b' :: '\x7b' :: rest) : params.ahead? cs = none := by
  rw [ahead?, List.find?_eq_none]
  intro p hp hpre
  obtain ⟨rest, hrest⟩ := List.isPrefixOf_iff_prefix.1 hpre
  exact h (p.1.toList ++ closeBraces ++ rest) (by rw [← hrest]; simp [braced, openBraces])

/-- Behind the first two there are no opening braces in a placeholder. -/
theorem getElem?_braced_ne (h : '\x7b' ∉ name.toList) (rest : List Char) {k : Nat} (h2 : 2 ≤ k)
    (hk : k < (braced name).length) : (braced name ++ rest)[k]? ≠ some '\x7b' := by
  obtain ⟨i, rfl⟩ : ∃ i, k = i + 2 := ⟨k - 2, by omega⟩
  rw [List.getElem?_append_left hk]
  intro heq
  have hmem : '\x7b' ∈ name.toList ++ closeBraces := List.mem_of_getElem? (i := i) heq
  rcases List.mem_append.1 hmem with hmem | hmem
  · exact h hmem
  · revert hmem
    decide

/-- No placeholder begins inside another. -/
theorem ahead?_inside (h : '\x7b' ∉ name.toList) (rest : List Char) {j : Nat} (h0 : 0 < j)
    (hj : j < (braced name).length) : params.ahead? ((braced name ++ rest).drop j) = none := by
  refine ahead?_eq_none_of_ne fun rest' heq => ?_
  have hfirst : (braced name ++ rest)[j]? = some '\x7b' := by
    rw [← Nat.add_zero j, ← List.getElem?_drop, heq]
    rfl
  have hsecond : (braced name ++ rest)[j + 1]? = some '\x7b' := by
    rw [← List.getElem?_drop, heq]
    rfl
  have hlength : 4 ≤ (braced name).length := by simp [braced, openBraces, closeBraces]
  -- at the last brace of a placeholder it is the first of the two that is wrong, else the second
  by_cases hlast : j + 1 < (braced name).length
  · exact getElem?_braced_ne h rest (by omega) hlast hsecond
  · exact getElem?_braced_ne h rest (by omega) hj hfirst

/-- The first closing braces are those of the placeholder. -/
theorem braced_isPrefixOf_iff (h : '\x7d' ∉ name.toList) : (braced name).isPrefixOf ('\x7b' :: '\x7b' :: cs) = true ↔
    ∃ rest, Text.cutAt? closeBraces cs = some (name.toList, rest) := by
  rw [List.isPrefixOf_iff_prefix]
  constructor
  · rintro ⟨rest, hrest⟩
    have hcs : cs = name.toList ++ (closeBraces ++ rest) := by
      simpa [braced, openBraces, eq_comm] using hrest
    exact ⟨rest, by rw [hcs]; exact Text.cutAt?_append rest h⟩
  · rintro ⟨rest, hcut⟩
    exact ⟨rest, by rw [Text.eq_of_cutAt? hcut]; simp [braced, openBraces]⟩

theorem ahead?_known (hfree : params.BraceFree) (hkey : knownKey? params.knows cs = some (name, rest))
    (hvalue : params.get? name = some value) : params.ahead? ('\x7b' :: '\x7b' :: cs) = some (name, value) := by
  have hcut := (knownKey?_eq_some_iff.1 hkey).1
  obtain ⟨before, behind, hsplit, hbefore⟩ := List.lookup_eq_some_iff.1 hvalue
  have hself : '\x7d' ∉ name.toList := (hfree (name, value) (by simp [hsplit])).2
  rw [ahead?, List.find?_eq_some_iff_append]
  refine ⟨(braced_isPrefixOf_iff hself).2 ⟨rest, hcut⟩, before, behind, hsplit, fun p hp => ?_⟩
  rw [Bool.not_eq_true', ← Bool.not_eq_true, braced_isPrefixOf_iff (hfree p (by simp [hsplit, hp])).2]
  rintro ⟨rest', hcut'⟩
  have hname : name = p.1 := String.toList_inj.1 (congrArg Prod.fst (Option.some.inj (hcut.symm.trans hcut')))
  simpa [hname] using hbefore p hp

theorem ahead?_unknown (hfree : params.BraceFree) (hkey : knownKey? params.knows cs = none) :
    params.ahead? ('\x7b' :: '\x7b' :: cs) = none := by
  rw [ahead?, List.find?_eq_none]
  intro p hp hpre
  obtain ⟨rest, hcut⟩ := (braced_isPrefixOf_iff (hfree p hp).2).1 hpre
  have hunknown : params.get? p.1 = none := by
    rw [← Option.not_isSome_iff_eq_none]
    intro hknown
    cases hkey.symm.trans (knownKey?_eq_some_iff.2 ⟨hcut, hknown⟩)
  simpa using List.lookup_eq_none_iff.1 hunknown p hp

end

end TemplateParams

/-! ## Braces in front -/

/-- The number of opening braces at the end of a text. -/
def openRun (front : List Char) : Nat := (front.rtakeWhile (· = '\x7b')).length

/-- An even number of opening braces stands directly in front of a position of `cs`, where `front` stands in front of
`cs`. -/
def evenlyOpened (front cs : List Char) (i : Nat) : Bool := Even (openRun (front ++ cs.take i))

theorem openRun_concat_open (front : List Char) : openRun (front ++ ['\x7b']) = openRun front + 1 := by
  rw [openRun, List.rtakeWhile_concat_pos _ _ _ (by simp), List.length_append, openRun]
  rfl

theorem openRun_concat_ne {c : Char} (h : c ≠ '\x7b') (front : List Char) : openRun (front ++ [c]) = 0 := by
  rw [openRun, List.rtakeWhile_concat_neg _ _ _ (by simpa using h)]
  rfl

theorem openRun_openBraces (front : List Char) : openRun (front ++ openBraces) = openRun front + 2 := by
  have hend : front ++ openBraces = front ++ ['\x7b'] ++ ['\x7b'] := by simp [openBraces]
  rw [hend, openRun_concat_open, openRun_concat_open]

theorem openRun_braced (front : List Char) (name : String) : openRun (front ++ braced name) = 0 := by
  have hend : front ++ braced name = front ++ openBraces ++ name.toList ++ ['\x7d'] ++ ['\x7d'] := by
    simp [braced, closeBraces]
  rw [hend, openRun_concat_ne (by decide)]

theorem evenlyOpened_zero {front : List Char} (h : Even (openRun front)) (cs : List Char) :
    evenlyOpened front cs 0 = true := by
  rw [evenlyOpened, List.take_zero, List.append_nil, decide_eq_true h]

theorem evenlyOpened_append (front part cs : List Char) :
    (fun i => evenlyOpened front (part ++ cs) (part.length + i)) = evenlyOpened (front ++ part) cs := by
  funext i
  rw [evenlyOpened, evenlyOpened, List.take_length_add_append, List.append_assoc]

/-! ## The way through a template -/

section
open TemplateParams

variable {params : TemplateParams} {front cs rest : List Char} {name value : String}

theorem fillAt_known (hfree : params.BraceFree) (heven : Even (openRun front))
    (hkey : knownKey? params.knows cs = some (name, rest)) (hvalue : params.get? name = some value) :
    params.fillAt (evenlyOpened front ('\x7b' :: '\x7b' :: cs)) ('\x7b' :: '\x7b' :: cs) =
      value.toList ++ params.fillAt (evenlyOpened (front ++ braced name) rest) rest := by
  have hself : '\x7b' ∉ name.toList := by
    obtain ⟨before, behind, hsplit, -⟩ := List.lookup_eq_some_iff.1 hvalue
    exact (hfree (name, value) (by simp [hsplit])).1
  have hahead := ahead?_known hfree hkey hvalue
  have htext : '\x7b' :: '\x7b' :: cs = braced name ++ rest := eq_braced_append hkey
  rw [htext] at hahead ⊢
  rw [fillAt_braced, evenlyOpened_append]
  · rw [placed?, if_pos (evenlyOpened_zero heven _), List.drop_zero, hahead]
  · intro j h0 hj
    rw [placed?, ahead?_inside hself rest h0 hj, ite_self]

theorem fillAt_plain {c : Char} (h : params.placed? (evenlyOpened front (c :: cs)) (c :: cs) 0 = none) :
    params.fillAt (evenlyOpened front (c :: cs)) (c :: cs) =
      c :: params.fillAt (evenlyOpened (front ++ [c]) cs) cs := by
  rw [fillAt_cons h]
  exact congrArg (c :: params.fillAt · cs) (evenlyOpened_append front [c] cs)

/-- Of two opening braces that begin no placeholder, the second is not picked. -/
theorem fillAt_unknown (hfree : params.BraceFree) (heven : Even (openRun front))
    (hkey : knownKey? params.knows cs = none) :
    params.fillAt (evenlyOpened front ('\x7b' :: '\x7b' :: cs)) ('\x7b' :: '\x7b' :: cs) =
      '\x7b' :: '\x7b' :: params.fillAt (evenlyOpened (front ++ openBraces) cs) cs := by
  have hodd : evenlyOpened (front ++ ['\x7b']) ('\x7b' :: cs) 0 = false := by
    rw [evenlyOpened, List.take_zero, List.append_nil, openRun_concat_open, decide_eq_false]
    exact fun h => Nat.even_add_one.1 h heven
  have hfirst : params.placed? (evenlyOpened front ('\x7b' :: '\x7b' :: cs)) ('\x7b' :: '\x7b' :: cs) 0 = none := by
    rw [placed?, List.drop_zero, ahead?_unknown hfree hkey, ite_self]
  have hsecond : params.placed? (evenlyOpened (front ++ ['\x7b']) ('\x7b' :: cs)) ('\x7b' :: cs) 0 = none := by
    rw [placed?, hodd, if_neg Bool.false_ne_true]
  rw [fillAt_plain hfirst, fillAt_plain hsecond, List.append_assoc]
  rfl

/-- A substitution from some place on. It never comes to a place with an odd number of opening braces in front and one
more behind. -/
theorem substituteChars_eq_fillAt (hfree : params.BraceFree) (cs : List Char) :
    ∀ front : List Char, (Even (openRun front) ∨ ∀ rest, cs ≠ '\x7b' :: rest) →
      substituteChars params cs = params.fillAt (evenlyOpened front cs) cs := by
  induction cs using TemplatePiece.cut.induct params.knows with
  | case1 =>
    intro front _
    rw [substituteChars]
    rfl
  | case2 cs name rest hkey ih =>
    intro front h
    have heven : Even (openRun front) := h.resolve_right fun hne => hne _ rfl
    obtain ⟨value, hvalue⟩ := Option.isSome_iff_exists.1 (knownKey?_eq_some_iff.1 hkey).2
    rw [substituteChars_known hkey, fillAt_known hfree heven hkey hvalue, hvalue, Option.getD_some, ← ih]
    exact .inl (openRun_braced front name ▸ Even.zero)
  | case3 cs hkey ih =>
    intro front h
    have heven : Even (openRun front) := h.resolve_right fun hne => hne _ rfl
    rw [substituteChars_unknown hkey, fillAt_unknown hfree heven hkey, ← ih]
    exact .inl (openRun_openBraces front ▸ heven.add even_two)
  | case4 c cs hno ih =>
    intro front h
    have hahead : params.ahead? (c :: cs) = none := by
      refine ahead?_eq_none_of_ne fun rest heq => ?_
      obtain ⟨rfl, rfl⟩ := List.cons.inj heq
      exact hno rest rfl rfl
    have hplaced : params.placed? (evenlyOpened front (c :: cs)) (c :: cs) 0 = none := by
      rw [placed?, List.drop_zero, hahead, ite_self]
    rw [substituteChars_cons hno, fillAt_plain hplaced, ← ih]
    by_cases hc : c = '\x7b'
    · exact .inr fun rest heq => hno rest hc heq
    · exact .inl (openRun_concat_ne hc front ▸ Even.zero)

/-- **A placeholder is filled in if an even number of opening braces stands directly in front of it**, and else it
stays. Where that number is always even, every placeholder is filled in. -/
theorem substitute_fills_evenly (template : String) (hfree : params.BraceFree) :
    substitute template params =
      String.ofList (params.fillAt (fun i => Even (openRun (template.toList.take i))) template.toList) ∧
    ((∀ i, (params.ahead? (template.toList.drop i)).isSome → Even (openRun (template.toList.take i))) →
      substitute template params = String.ofList (params.fillAt (fun _ => true) template.toList)) := by
  have hscan : substitute template params =
      String.ofList (params.fillAt (fun i => Even (openRun (template.toList.take i))) template.toList) :=
    congrArg String.ofList (substituteChars_eq_fillAt hfree template.toList [] (.inl Even.zero))
  refine ⟨hscan, fun heven => hscan.trans (congrArg String.ofList (fillAt_congr fun i => ?_))⟩
  cases hahead : params.ahead? (template.toList.drop i) with
  | none => simp only [placed?, hahead, ite_self]
  | some p => simp only [placed?, heven i (by rw [hahead]; rfl), decide_true]

/-- A name whose value looks like a placeholder. -/
def greeting : TemplateParams := [("name", "\x7b\x7bwho\x7d\x7d"), ("who", "world")]

/-- A placeholder with a brace too many behind it. -/
def hello : String := "hello \x7b\x7bwho\x7d\x7d\x7d"

theorem substitute_fills_evenly_greeting :
    greeting.BraceFree ∧
      substitute "$\x7b\x7b\x7bwho\x7d\x7d\x7d \x7b\x7b\x7b\x7bname\x7d\x7d \x7b\x7bno \x7b\x7bwho\x7d\x7d" greeting =
        "$\x7b\x7b\x7bwho\x7d\x7d\x7d \x7b\x7b\x7b\x7bwho\x7d\x7d \x7b\x7bno world" ∧
      substitute hello greeting = "hello world\x7d" := by
  have hfree : greeting.BraceFree := by decide
  refine ⟨hfree, ?_, ?_⟩
  · exact (substitute_fills_evenly _ hfree).1.trans (by decide +kernel)
  · refine ((substitute_fills_evenly hello hfree).2 fun i hahead => ?_).trans (by decide +kernel)
    have hshort : ∀ i < hello.toList.length, (greeting.ahead? (hello.toList.drop i)).isSome →
        Even (openRun (hello.toList.take i)) := by decide +kernel
    rcases Nat.lt_or_ge i hello.toList.length with hi | hi
    · exact hshort i hi hahead
    · rw [List.drop_eq_nil_of_le hi] at hahead
      exact absurd hahead (by decide)

/-- **Not every placeholder is filled in**, even where no key holds a brace. -/
theorem not_all_filled : ¬ ∀ (template : String) (params : TemplateParams), params.BraceFree →
    substitute template params = String.ofList (params.fillAt (fun _ => true) template.toList) := by
  intro h
  have hall := h "\x7b\x7b\x7bwho\x7d\x7d\x7d" [("who", "world")] (by decide)
  have hleft : substitute "\x7b\x7b\x7bwho\x7d\x7d\x7d" [("who", "world")] = "\x7b\x7b\x7bwho\x7d\x7d\x7d" := by
    decide +kernel
  have hworld : String.ofList (fillAt [("who", "world")] (fun _ => true) "\x7b\x7b\x7bwho\x7d\x7d\x7d".toList) =
      "\x7bworld\x7d" := by decide +kernel
  rw [hleft, hworld] at hall
  exact absurd hall (by decide)

end

end JobHierarchy
