import JobHierarchy.CommandLine.Session
import JobHierarchy.Proofs.Basics
/-!
# What a command line says by itself

An option that is absent from a command line can have a value from a variable of the environment.
`Grammar.lineOnly` reads the same words and looks at no variable. Where a line is read at all, each option has the
value that the line by itself gives to it, and one that the line does not give has that of its variable
(`Grammar.read_completes`). This holds through all the commands on the way, each of which takes the same options, since
what the line gives at one command counts more than a variable at another.
-/

namespace JobHierarchy.CommandLine

/-! ## Findings -/

theorem Finding.over_line {above below : Finding} (h : below.source = .line) : above.over below = below := by
  simp [Finding.over, h]

theorem Findings.lookup_over (above below : Findings) (name : String) :
    (Findings.over above below).lookup name = match below.lookup name with
      | some f => some (match above.lookup name with
        | some g => g.over f
        | none => f)
      | none => above.lookup name := by
  let f : String → Finding → Finding := fun name f => match above.lookup name with
    | some g => g.over f
    | none => f
  have hover : Findings.over above below = (below.map fun e => (e.1, f e.1 e.2)) ++
      above.filter fun e => (below.lookup e.1).isNone := by
    unfold Findings.over
    congr 1
    refine List.map_congr_left fun e _ => ?_
    simp only [f]
    cases above.lookup e.1 <;> rfl
  have hkeep := lookup_keepKeys (fun name => (below.lookup name).isNone) name above
  rw [hover, List.lookup_append, lookup_mapValues, hkeep]
  cases below.lookup name with
  | some found => rfl
  | none => rfl

/-- All of these stand on the line, with a value for each name that has to have one. -/
def Findings.OnLine (valued : List String) (findings : Findings) : Prop :=
  ∀ name f, findings.lookup name = some f → f.source = .line ∧ (name ∈ valued → f.values ≠ [])

theorem Findings.OnLine.over {valued : List String} {above below : Findings} (h : above.OnLine valued)
    (h' : below.OnLine valued) : (Findings.over above below).OnLine valued := by
  intro name f hf
  rw [lookup_over] at hf
  cases hbelow : below.lookup name with
  | some found =>
    have hline := h' name found hbelow
    rw [hbelow] at hf
    cases habove : above.lookup name with
    | some other =>
      simp only [habove, Finding.over_line hline.1] at hf
      cases hf
      exact hline
    | none =>
      simp only [habove] at hf
      cases hf
      exact hline
  | none =>
    rw [hbelow] at hf
    exact h name f hf

namespace Level

theorem lookup_put (l : Level) (name q : String) (f : Finding) :
    (l.put name f).findings.lookup q = if q = name then some f else l.findings.lookup q := by
  unfold put
  by_cases h : q = name
  · rw [if_pos h, h, List.lookup_cons_self]
  · rw [if_neg h, lookup_cons_of_ne h]
    have hkeep := lookup_keepKeys (fun key => key != name) q l.findings
    rw [hkeep, if_pos (by simpa using h)]

/-- All that was found so far stands on the line. -/
abbrev OnLine (valued : List String) (l : Level) : Prop := l.findings.OnLine valued

variable {valued : List String} {l l' : Level} {g : Grammar} {path : List String} {a : Argument}

theorem onLine_start : start.OnLine valued := by
  intro name f h
  cases h

theorem OnLine.put (hl : l.OnLine valued) (name : String) {values : List String}
    (hvalues : name ∈ valued → values ≠ []) : (l.put name ⟨.line, values⟩).OnLine valued := by
  intro q f hf
  rw [lookup_put] at hf
  split at hf
  · next hq =>
    cases hf
    subst hq
    exact ⟨rfl, hvalues⟩
  · exact hl q f hf

/-! ## Words -/

theorem take_eq_ok {source : Source} {value : String} (h : l.take source a value = .ok l') :
    l' = l.put a.name ⟨source, ((l.findings.lookup a.name).map (·.values)).getD [] ++ [value]⟩ := by
  unfold take at h
  split at h
  · cases h
  · split at h
    · cases h
    · cases h
      rfl

theorem OnLine.take (hl : l.OnLine valued) {value : String} (h : l.take .line a value = .ok l') : l'.OnLine valued := by
  rw [take_eq_ok h]
  exact hl.put _ fun _ => List.append_ne_nil_of_right_ne_nil _ (List.cons_ne_nil _ _)

theorem OnLine.settle (hl : l.OnLine valued) (h : l.settle = .ok l') : l'.OnLine valued := by
  unfold Level.settle at h
  split at h
  · cases h
    exact hl
  · cases h
  · exact OnLine.take (l := { l with pending := none }) hl h

theorem OnLine.await (hl : l.OnLine valued) (h : l.await a = .ok l') : l'.OnLine valued := by
  obtain ⟨settled, hsettled, h⟩ := Except.bind_eq_ok h
  have hs := hl.settle hsettled
  cases h
  exact hs

theorem OnLine.meet (hl : l.OnLine valued) (ha : a.name ∉ valued) (h : l.meet path a = .ok l') : l'.OnLine valued := by
  obtain ⟨settled, hsettled, h⟩ := Except.bind_eq_ok h
  have hs := hl.settle hsettled
  split at h
  · cases h
  · cases h
  · split at h
    · cases h
    · cases h
      exact hs.put _ fun hmem => absurd hmem ha

theorem OnLine.place (hl : l.OnLine valued) {word : String} (h : l.place g word = .ok l') : l'.OnLine valued := by
  unfold Level.place at h
  split at h
  · obtain ⟨settled, hsettled, h⟩ := Except.bind_eq_ok h
    have hs := hl.settle hsettled
    cases h
    exact hs
  · split at h
    · cases h
    · split at h <;> cases h

section
variable (hg : ∀ a ∈ g.options, a.takesValue = false → a.name ∉ valued)
include hg

theorem OnLine.long (hl : l.OnLine valued) {name : String} {attached : Option String}
    (h : l.long g path name attached = .ok l') : l'.OnLine valued := by
  unfold Level.long at h
  split at h
  · cases h
  · next a ha =>
    split at h
    · obtain ⟨settled, hsettled, h⟩ := Except.bind_eq_ok h
      exact (hl.settle hsettled).take h
    · exact hl.await h
    · cases h
    · next hvalue => exact hl.meet (hg a (List.mem_of_find?_eq_some ha) hvalue) h

theorem OnLine.shorts : ∀ {cs : List Char} {l : Level}, l.OnLine valued → l.shorts g path cs = .ok l' → l'.OnLine valued
  | [], l, hl, h => by
    cases h
    exact hl
  | c :: rest, l, hl, h => by
    rw [Level.shorts] at h
    split at h
    · cases h
    · next a ha =>
      split at h
      · split at h
        · exact hl.await h
        · obtain ⟨settled, hsettled, h⟩ := Except.bind_eq_ok h
          exact (hl.settle hsettled).take h
        · obtain ⟨settled, hsettled, h⟩ := Except.bind_eq_ok h
          exact (hl.settle hsettled).take h
      · next hvalue =>
        obtain ⟨met, hmet, h⟩ := Except.bind_eq_ok h
        have hname := hg a (List.mem_of_find?_eq_some ha) (Bool.eq_false_iff.2 hvalue)
        exact OnLine.shorts (hl.meet hname hmet) h

/-- A word that is met puts nothing into the findings but what stands on the line. -/
theorem OnLine.accept (hl : l.OnLine valued) {word : String} (h : l.accept g path word = .ok l') :
    l'.OnLine valued := by
  unfold Level.accept at h
  split at h
  · exact hl.place h
  · split at h
    · cases h
      exact hl
    · split at h
      · exact hl.long hg h
      · exact hl.long hg h
    · exact OnLine.shorts hg hl h
    · split at h
      · cases h
        exact hl
      · exact hl.place h

end

end Level

/-! ## Variables -/

/-- The options that variables stand in for, with these. -/
def Grammar.fallbacks (g : Grammar) : List (String × String) :=
  g.options.filterMap fun a => a.fallback.map fun variableName => (a.name, variableName)

/-- The value of the variable that stands in for an option. -/
def standIn (environment : String → Option String) (fallbacks : List (String × String)) (name : String) :
    Option String :=
  fallbacks.findSome? fun e => if e.1 = name then environment e.2 else none

/-- A value that a variable gives. -/
def Finding.ofVariable (value : String) : Finding := ⟨.environment, [value]⟩

namespace Level

variable {environment : String → Option String} {l l' : Level} {a : Argument}

/-- A variable gives a value to an option that has none. -/
theorem lookup_fallBack (h : l.fallBack environment a = .ok l') (name : String) :
    l'.findings.lookup name = (l.findings.lookup name).or
      (if a.name = name then (a.fallback.bind environment).map .ofVariable else none) := by
  unfold fallBack at h
  cases hvalue : a.fallback.bind environment with
  | none =>
    rw [hvalue] at h
    cases h
    simp
  | some value =>
    simp only [hvalue] at h
    split at h
    · next hhas =>
      -- the option has a value, and keeps it
      cases h
      by_cases hname : a.name = name
      · obtain ⟨f, hf⟩ := Option.isSome_iff_exists.1 hhas
        rw [← hname, hf, Option.some_or]
      · simp [hname]
    · next hhas =>
      have hnone : l.findings.lookup a.name = none := Option.not_isSome_iff_eq_none.1 hhas
      rw [take_eq_ok h, lookup_put, hnone]
      by_cases hname : a.name = name
      · subst hname
        simp [hnone, Finding.ofVariable]
      · simp [hname, Ne.symm hname]

theorem lookup_foldlM_fallBack (name : String) : ∀ {options : List Argument} {l l' : Level},
    options.foldlM (fallBack environment) l = .ok l' → l'.findings.lookup name = (l.findings.lookup name).or
      ((standIn environment (options.filterMap fun a => a.fallback.map fun v => (a.name, v)) name).map .ofVariable)
  | [], l, l', h => by
    cases h
    simp [standIn]
  | a :: options, l, l', h => by
    obtain ⟨next, hnext, h⟩ := Except.bind_eq_ok h
    rw [lookup_foldlM_fallBack name h, lookup_fallBack hnext, Option.or_assoc]
    congr 1
    cases hfallback : a.fallback with
    | none => simp [hfallback]
    | some v =>
      simp only [List.filterMap_cons, hfallback, Option.map_some, Option.bind_some, standIn, List.findSome?_cons]
      by_cases hname : a.name = name
      · simp only [if_pos hname]
        cases environment v <;> simp
      · simp [hname]

theorem finish_eq_ok {g : Grammar} {path : List String} {below : Option Found} {found : Found}
    (h : l.finish environment g path below = .ok found) :
    ∃ settled fallen, l.settle = .ok settled ∧ g.options.foldlM (fallBack environment) settled = .ok fallen ∧
      found.findings = match below with
        | some found => Findings.over fallen.findings found.findings
        | none => fallen.findings := by
  obtain ⟨settled, hsettled, h⟩ := Except.bind_eq_ok h
  obtain ⟨fallen, hfallen, h⟩ := Except.bind_eq_ok h
  refine ⟨settled, fallen, hsettled, hfallen, ?_⟩
  dsimp only at h
  split at h
  · cases h
  · split at h
    · cases h
    · split at h
      · cases h
        rfl
      · cases h
        rfl

end Level

/-- What stands at one of two commands counts more than a variable at either. -/
theorem Findings.lookup_over_or {valued : List String} {above below above' below' : Findings} {name : String}
    {value : Option String} (ha : above.OnLine valued) (hb : below.OnLine valued)
    (ha' : above'.lookup name = (above.lookup name).or (value.map .ofVariable))
    (hb' : below'.lookup name = (below.lookup name).or (value.map .ofVariable)) :
    (Findings.over above' below').lookup name =
      ((Findings.over above below).lookup name).or (value.map .ofVariable) := by
  rw [lookup_over, lookup_over, ha', hb']
  cases hbelow : below.lookup name with
  | some f =>
    have hf := (hb name f hbelow).1
    cases habove : above.lookup name <;> cases value <;> simp [Finding.over_line hf]
  | none =>
    cases habove : above.lookup name with
    | some g =>
      have hg := (ha name g habove).1
      cases value <;> simp [Finding.over, Finding.ofVariable, hg]
    | none => cases value <;> simp [Finding.over, Finding.ofVariable]

/-! ## Whole lines -/

/-- What the words say behind the name of a command, and at the commands below it that they name. -/
def scanLine (g : Grammar) (path : List String) (l : Level) : List String → Except Stop Findings
  | [] => do return (← l.settle).findings
  | word :: rest =>
    if l.awaitsCommand && g.isCommandWord word then
      match g.command? word with
      | some below => do
        let found ← scanLine below (path ++ [word]) .start rest
        return Findings.over (← l.settle).findings found
      | none => .error (helpWith g path rest)
    else do scanLine g path (← l.accept g path word) rest

/-- What a line says by itself: its words are read as ever, but no variable is looked at, and whether anything is
missing is not asked. -/
def Grammar.lineOnly (g : Grammar) (words : List String) : Except Stop Findings := scanLine g [g.name] .start words

/-- These are the variables that stand in for options of a command, and only an option that takes a value has one. -/
def Grammar.TakesHere (fallbacks : List (String × String)) (g : Grammar) : Prop :=
  g.fallbacks = fallbacks ∧ ∀ a ∈ g.options, a.takesValue = false → a.name ∉ fallbacks.map (·.1)

instance (fallbacks : List (String × String)) (g : Grammar) : Decidable (g.TakesHere fallbacks) :=
  inferInstanceAs (Decidable (_ ∧ _))

/-- The same variables stand in for the same options at a command and at all below it. -/
inductive Grammar.Takes (fallbacks : List (String × String)) : Grammar → Prop where
  | intro {g : Grammar} (here : g.TakesHere fallbacks) (below : ∀ g' ∈ g.commands, g'.Takes fallbacks) :
    g.Takes fallbacks

/-- The findings are those of a line, with the variables for the options that it does not give. -/
structure Completes (environment : String → Option String) (fallbacks : List (String × String)) (said found : Findings) :
    Prop where
  onLine : said.OnLine (fallbacks.map (·.1))
  lookup_eq : ∀ name, found.lookup name = (said.lookup name).or ((standIn environment fallbacks name).map .ofVariable)

section
variable {environment : String → Option String} {fallbacks : List (String × String)}

theorem completes_fallen {g : Grammar} {settled fallen : Level} (hg : g.Takes fallbacks)
    (hs : settled.OnLine (fallbacks.map (·.1))) (h : g.options.foldlM (Level.fallBack environment) settled = .ok fallen) :
    Completes environment fallbacks settled.findings fallen.findings := by
  obtain ⟨⟨rfl, -⟩, -⟩ := hg
  exact ⟨hs, fun name => Level.lookup_foldlM_fallBack name h⟩

theorem scan_completes : ∀ {words : List String} {g : Grammar} {path : List String} {l : Level} {found : Found},
    g.Takes fallbacks → l.OnLine (fallbacks.map (·.1)) → scan environment g path l words = .ok found →
    ∃ said, scanLine g path l words = .ok said ∧ Completes environment fallbacks said found.findings
  | [], g, path, l, found, hg, hl, h => by
    obtain ⟨settled, fallen, hsettled, hfallen, hfound⟩ := Level.finish_eq_ok h
    refine ⟨settled.findings, ?_, ?_⟩
    · rw [scanLine, hsettled]
      rfl
    · rw [hfound]
      exact completes_fallen hg (hl.settle hsettled) hfallen
  | word :: rest, g, path, l, found, hg, hl, h => by
    rw [scan] at h
    rw [scanLine]
    split at h
    · next hcommand =>
      rw [if_pos hcommand]
      cases hbelow : g.command? word with
      | none =>
        rw [hbelow] at h
        cases h
      | some below =>
        simp only [hbelow] at h
        obtain ⟨inner, hinner, h⟩ := Except.bind_eq_ok h
        obtain ⟨settled, fallen, hsettled, hfallen, hfound⟩ := Level.finish_eq_ok h
        have htakes : below.Takes fallbacks := by
          obtain ⟨-, hcommands⟩ := hg
          exact hcommands below (List.mem_of_find?_eq_some hbelow)
        obtain ⟨said, hsaid, hline, hlookup⟩ := scan_completes htakes Level.onLine_start hinner
        have hhere := completes_fallen hg (hl.settle hsettled) hfallen
        refine ⟨Findings.over settled.findings said, ?_, hhere.onLine.over hline, fun name => ?_⟩
        · simp only [hsaid, hsettled]
          rfl
        · rw [hfound]
          exact Findings.lookup_over_or hhere.onLine hline (hhere.lookup_eq name) (hlookup name)
    · next hcommand =>
      rw [if_neg hcommand]
      obtain ⟨next, hnext, h⟩ := Except.bind_eq_ok h
      rw [hnext]
      have hhere : g.TakesHere fallbacks := by
        obtain ⟨hhere, -⟩ := hg
        exact hhere
      exact scan_completes hg (hl.accept hhere.2 hnext) h

/-- **Where a line can be read**, each option has the value that the line by itself gives to it, and one that the line
does not give has that of its variable. -/
theorem Grammar.read_completes {g : Grammar} {words : List String} {found : Found} (hg : g.Takes fallbacks)
    (h : g.read environment words = .ok found) :
    ∃ said, g.lineOnly words = .ok said ∧ Completes environment fallbacks said found.findings :=
  scan_completes hg Level.onLine_start h

/-! ## Values -/

variable {said : Findings} {found : Found}

/-- An option that no variable stands in for has the value that the line gives to it. -/
theorem Completes.value?_eq {α : Type} (h : Completes environment fallbacks said found.findings) {p : Parameter α}
    (hp : standIn environment fallbacks p.argument.name = none) : found.value? p = Found.value? ⟨[], said⟩ p := by
  have hlookup : found.findings.lookup p.argument.name = said.lookup p.argument.name := by
    rw [h.lookup_eq, hp, Option.map_none, Option.or_none]
  simp only [Found.value?, Found.values, hlookup]

theorem Found.value?_text (found : Found) {p : Parameter String} (hp : p.read = readText) :
    found.value? p = .ok (((found.findings.lookup p.argument.name).map (·.values)).getD []).getLast? := by
  have hread : ∀ texts : List String, (texts.mapM fun text =>
      (p.read text).mapError fun fault => Stop.refusedValue text p.argument.text fault) = .ok texts := by
    intro texts
    rw [hp]
    exact (List.mapM_pure (m := Except Stop) (f := id)).trans (by rw [List.map_id]; rfl)
  rw [Found.value?, Found.values, hread]
  rfl

/-- An option for text that a variable stands in for has the value that the line gives to it, or else that of the
variable. -/
theorem Completes.value?_or (h : Completes environment fallbacks said found.findings) {p : Parameter String}
    (hp : p.read = readText) (hname : p.argument.name ∈ fallbacks.map (·.1)) :
    ∃ x, Found.value? ⟨[], said⟩ p = .ok x ∧
      found.value? p = .ok (x.or (standIn environment fallbacks p.argument.name)) := by
  refine ⟨_, Found.value?_text _ hp, ?_⟩
  rw [Found.value?_text _ hp, h.lookup_eq]
  cases hsaid : said.lookup p.argument.name with
  | none => cases standIn environment fallbacks p.argument.name <;> rfl
  | some f =>
    have hvalues : f.values ≠ [] := (h.onLine _ f hsaid).2 hname
    obtain ⟨last, hlast⟩ := Option.isSome_iff_exists.1 (List.getLast?_isSome.2 hvalues)
    simp only [Option.some_or, Option.map_some, Option.getD_some, hlast]

end

end JobHierarchy.CommandLine
