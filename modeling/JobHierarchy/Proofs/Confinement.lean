import JobHierarchy.Proofs.Parts
import JobHierarchy.Proofs.Polling
/-!
# Programs confined to one part

A program is confined to the part `top` if it leaves every other part as it is, and if all it does depends on
that part alone: in two worlds with the same part `top` it comes to the same, changes that part alike and takes
the same time (`Program.Confined`). What else is on the server, and what time it is, plays no role. Each way
to build a program has one rule, so an operation is confined because its requests are.

A poll is confined if its probes are (`Operation.Confined.poll`): probes in two worlds with the same part find
the same, so the polls end after the same number of them.
-/

namespace JobHierarchy

open Memory

variable {α β : Type}

namespace Memory.World

/-- Nothing is planned, and the tree is well formed. -/
structure Idle (w : World) : Prop where
  pending : w.pending = []
  wellFormed : w.server.tree.WellFormed

theorem Idle.elapse_eq {w : World} (h : w.Idle) (millis : Nat) :
    w.elapse millis = { w with now := w.now + millis } := by
  simp [World.elapse, dueBy, h.pending]

theorem Idle.elapse {w : World} (h : w.Idle) (millis : Nat) : (w.elapse millis).Idle := by
  rw [h.elapse_eq]
  exact ⟨h.pending, h.wellFormed⟩

end Memory.World

/-- The program `p` reads and changes only the part `top`, and comes to a value with `P`. -/
structure Program.Confined (top : String) (p : Program α) (P : α → Prop) : Prop where
  idle : ∀ w : World, w.Idle → (w.run p).2.Idle
  others : ∀ w : World, w.Idle → ∀ other, other ≠ top → (w.run p).2.server.part other = w.server.part other
  gives : ∀ w : World, w.Idle → P (w.run p).1
  alike : ∀ w w' : World, w.Idle → w'.Idle → w.server.part top = w'.server.part top →
    (w.run p).1 = (w'.run p).1 ∧ (w.run p).2.server.part top = (w'.run p).2.server.part top ∧
      (w.run p).2.now + w'.now = (w'.run p).2.now + w.now

/-- The operation `t` reads and changes only the part `top`, and comes to a value with `P` if it succeeds. -/
def Operation.Confined (top : String) (t : Operation α) (P : α → Prop) : Prop :=
  Program.Confined top t.run fun x => ∀ a, x = .ok a → P a

namespace Program

variable {top : String} {P : α → Prop} {Q : β → Prop}

/-! ## Rules for programs -/

theorem Confined.imp {P' : α → Prop} {p : Program α} (h : p.Confined top P) (himp : ∀ a, P a → P' a) :
    p.Confined top P' :=
  ⟨h.idle, h.others, fun w hw => himp _ (h.gives w hw), h.alike⟩

theorem confined_done {a : α} (h : P a) : (Program.done a).Confined top P :=
  ⟨fun _ hw => hw, fun _ _ _ _ => rfl, fun _ _ => h, fun _ _ _ _ hpart => ⟨rfl, hpart, Nat.add_comm _ _⟩⟩

theorem confined_report (event : LogEvent) : (Program.report event (.done ())).Confined top fun _ => True :=
  ⟨fun _ hw => ⟨hw.pending, hw.wellFormed⟩, fun _ _ _ _ => rfl, fun _ _ => trivial,
    fun _ _ _ _ hpart => ⟨rfl, hpart, Nat.add_comm _ _⟩⟩

/-- A request about an item of the part. -/
theorem confined_request {r : Request} {P : Except Error r.Answer → Prop} (hpath : (Server.callOf r).path.Under top)
    (hname : ∀ name, r.newName? = some name → IsItemName name)
    (hP : ∀ s : Server, s.tree.WellFormed → P (s.perform r).1) : (Program.request r .done).Confined top P := by
  refine ⟨fun w hw => ⟨hw.pending, Server.perform_wellFormed hw.wellFormed hname⟩, fun w hw other hne => ?_,
    fun w hw => hP w.server hw.wellFormed, fun w w' hw hw' hpart => ?_⟩
  · exact Server.answer_part_other (w.server.record (Server.callOf r)) r hpath hne
  · have h := Server.answer_part (w.server.record (Server.callOf r)) r hpath
    have h' := Server.answer_part (w'.server.record (Server.callOf r)) r hpath
    rw [Server.record_part, hpart, ← Server.record_part w'.server (Server.callOf r), h'] at h
    exact ⟨(congrArg Prod.fst h).symm, (congrArg Prod.snd h).symm, Nat.add_comm _ _⟩

theorem Confined.bind {p : Program α} {f : α → Program β} (hp : p.Confined top P)
    (hf : ∀ a, P a → (f a).Confined top Q) : (p >>= f).Confined top Q := by
  refine ⟨fun w hw => ?_, fun w hw other hne => ?_, fun w hw => ?_, fun w w' hw hw' hpart => ?_⟩
  · rw [World.run_bind]
    exact (hf _ (hp.gives w hw)).idle _ (hp.idle w hw)
  · rw [World.run_bind, (hf _ (hp.gives w hw)).others _ (hp.idle w hw) other hne, hp.others w hw other hne]
  · rw [World.run_bind]
    exact (hf _ (hp.gives w hw)).gives _ (hp.idle w hw)
  · obtain ⟨ha, hpart₁, hnow⟩ := hp.alike w w' hw hw' hpart
    obtain ⟨hb, hpart₂, hnow₂⟩ := (hf _ (hp.gives w hw)).alike _ _ (hp.idle w hw) (hp.idle w' hw') hpart₁
    rw [World.run_bind, World.run_bind, ← ha]
    exact ⟨hb, hpart₂, by omega⟩

/-- A program that, in any two worlds, runs like a confined one. -/
theorem confined_of_runs {p : Program α}
    (h : ∀ w w' : World, w.Idle → w'.Idle →
      ∃ q : Program α, q.Confined top P ∧ w.run p = w.run q ∧ w'.run p = w'.run q) :
    p.Confined top P := by
  refine ⟨fun w hw => ?_, fun w hw other hne => ?_, fun w hw => ?_, fun w w' hw hw' hpart => ?_⟩
  · obtain ⟨q, hq, hrun, -⟩ := h w w hw hw
    rw [hrun]
    exact hq.idle w hw
  · obtain ⟨q, hq, hrun, -⟩ := h w w hw hw
    rw [hrun]
    exact hq.others w hw other hne
  · obtain ⟨q, hq, hrun, -⟩ := h w w hw hw
    rw [hrun]
    exact hq.gives w hw
  · obtain ⟨q, hq, hrun, hrun'⟩ := h w w' hw hw'
    rw [hrun, hrun']
    exact hq.alike w w' hw hw' hpart

/-- A program that is timed: the time of day does not show in the difference of two times. -/
theorem Confined.timed {p : Program α} (hp : p.Confined top P) (f : α → Nat → β)
    (hf : ∀ a millis, P a → Q (f a millis)) :
    Program.Confined top (do
      let started ← Program.clock .done
      let a ← p
      let ended ← Program.clock .done
      return f a (ended - started)) Q := by
  have hrun : ∀ w : World, w.run (do
      let started ← Program.clock .done
      let a ← p
      let ended ← Program.clock .done
      return f a (ended - started)) = (f (w.run p).1 ((w.run p).2.now - w.now), (w.run p).2) := by
    intro w
    rw [World.run_bind, World.run_bind]
    rfl
  refine ⟨fun w hw => ?_, fun w hw other hne => ?_, fun w hw => ?_, fun w w' hw hw' hpart => ?_⟩
  · rw [hrun]
    exact hp.idle w hw
  · rw [hrun]
    exact hp.others w hw other hne
  · rw [hrun]
    exact hf _ _ (hp.gives w hw)
  · obtain ⟨ha, hpart₁, hnow⟩ := hp.alike w w' hw hw' hpart
    have hle := w.now_le_run p
    have hle' := w'.now_le_run p
    have hmillis : (w.run p).2.now - w.now = (w'.run p).2.now - w'.now := by omega
    rw [hrun, hrun, ← ha, hmillis]
    exact ⟨rfl, hpart₁, hnow⟩

end Program

namespace Operation

variable {top : String} {P : α → Prop} {Q : β → Prop}

/-! ## Rules for operations -/

theorem Confined.imp {P' : α → Prop} {t : Operation α} (h : Operation.Confined top t P) (himp : ∀ a, P a → P' a) :
    Operation.Confined top t P' :=
  Program.Confined.imp h fun _ hx a ha => himp a (hx a ha)

theorem confined_pure {a : α} (h : P a) : Operation.Confined top (pure a) P :=
  Program.confined_done fun _ hb => Except.ok.inj hb ▸ h

theorem confined_throw (e : Error) : Operation.Confined top (throw e : Operation α) P :=
  Program.confined_done fun _ ha => by cases ha

theorem confined_ofExcept {x : Except Error α} (h : ∀ a, x = .ok a → P a) :
    Operation.Confined top (Operation.ofExcept x) P := Program.confined_done h

theorem confined_report (level : LogLevel) (text : String) :
    Operation.Confined top (Operation.report level text) fun _ => True :=
  (Program.confined_report ⟨level, text⟩).bind fun _ _ => Program.confined_done fun _ _ => trivial

theorem confined_ask {r : Request} {P : r.Answer → Prop} (hpath : (Server.callOf r).path.Under top)
    (hname : ∀ name, r.newName? = some name → IsItemName name)
    (hP : ∀ s : Server, s.tree.WellFormed → ∀ a, (s.perform r).1 = .ok a → P a) :
    Operation.Confined top (Operation.ask r) P := Program.confined_request hpath hname hP

theorem Confined.bind {t : Operation α} {f : α → Operation β} (ht : Operation.Confined top t P)
    (hf : ∀ a, P a → Operation.Confined top (f a) Q) : Operation.Confined top (t >>= f) Q := by
  refine Program.Confined.bind ht fun x hx => ?_
  cases x with
  | ok a => exact hf a (hx a rfl)
  | error e => exact confined_throw e

theorem Confined.outcome {t : Operation α} (ht : Operation.Confined top t P) :
    Operation.Confined top (Operation.outcome t) fun x => ∀ a, x = .ok a → P a := by
  rw [Operation.Confined, run_outcome]
  exact Program.Confined.bind ht fun x hx => Program.confined_done fun y hy => Except.ok.inj hy ▸ hx

theorem confined_reportAll : ∀ events : List LogEvent,
    Operation.Confined top (Operation.reportAll events) fun _ => True
  | [] => confined_pure trivial
  | event :: events => Confined.bind (confined_report event.level event.text) fun _ _ => confined_reportAll events

end Operation

/-! ## Polls -/

namespace Memory.World

section
variable {top : String} {P : α → Prop} {probe : Nat → Program α} {w w' : World} (interval : Nat)

theorem idle_atProbe (hprobe : ∀ k, (probe k).Confined top P) (hw : w.Idle) :
    ∀ k, (w.atProbe interval probe k).Idle
  | 0 => hw
  | k + 1 => ((hprobe (k + 1)).idle _ (idle_atProbe hprobe hw k)).elapse interval

theorem others_atProbe (hprobe : ∀ k, (probe k).Confined top P) (hw : w.Idle) {other : String} (hne : other ≠ top) :
    ∀ k, (w.atProbe interval probe k).server.part other = w.server.part other
  | 0 => rfl
  | k + 1 => by
    have hidle := idle_atProbe interval hprobe hw k
    rw [atProbe, ((hprobe (k + 1)).idle _ hidle).elapse_eq, (hprobe (k + 1)).others _ hidle other hne]
    exact others_atProbe hprobe hw hne k

/-- Two rows of probes over the same part keep step. -/
theorem alike_atProbe (hprobe : ∀ k, (probe k).Confined top P) (hw : w.Idle) (hw' : w'.Idle)
    (hpart : w.server.part top = w'.server.part top) : ∀ k,
    (w.atProbe interval probe k).server.part top = (w'.atProbe interval probe k).server.part top ∧
      (w.atProbe interval probe k).now + w'.now = (w'.atProbe interval probe k).now + w.now
  | 0 => ⟨hpart, Nat.add_comm _ _⟩
  | k + 1 => by
    obtain ⟨hpart, hnow⟩ := alike_atProbe hprobe hw hw' hpart k
    have hidle := idle_atProbe interval hprobe hw k
    have hidle' := idle_atProbe interval hprobe hw' k
    obtain ⟨-, hpart₁, hnow₁⟩ := (hprobe (k + 1)).alike _ _ hidle hidle' hpart
    rw [atProbe, atProbe, ((hprobe (k + 1)).idle _ hidle).elapse_eq, ((hprobe (k + 1)).idle _ hidle').elapse_eq]
    refine ⟨hpart₁, ?_⟩
    dsimp only
    omega

theorem alike_probed (hprobe : ∀ k, (probe k).Confined top P) (hw : w.Idle) (hw' : w'.Idle)
    (hpart : w.server.part top = w'.server.part top) (k : Nat) :
    (w.probed interval probe k).1 = (w'.probed interval probe k).1 ∧
      (w.probed interval probe k).2.server.part top = (w'.probed interval probe k).2.server.part top ∧
      (w.probed interval probe k).2.now + w'.now = (w'.probed interval probe k).2.now + w.now := by
  obtain ⟨hpart, hnow⟩ := alike_atProbe interval hprobe hw hw' hpart k
  obtain ⟨hfound, hpart₁, hnow₁⟩ :=
    (hprobe (k + 1)).alike _ _ (idle_atProbe interval hprobe hw k) (idle_atProbe interval hprobe hw' k) hpart
  refine ⟨hfound, hpart₁, ?_⟩
  rw [probed, probed]
  omega

theorem waited_alike (hprobe : ∀ k, (probe k).Confined top P) (hw : w.Idle) (hw' : w'.Idle)
    (hpart : w.server.part top = w'.server.part top) (k : Nat) :
    w.waited interval probe k = w'.waited interval probe k := by
  obtain ⟨-, -, hnow⟩ := alike_probed interval hprobe hw hw' hpart k
  have hle := w.now_le_probed interval probe k
  have hle' := w'.now_le_probed interval probe k
  rw [waited, waited]
  omega

end

end Memory.World

/-- Two searches for the first value of the same row end alike. -/
theorem first_unique {f : Nat → Option α} {k k' : Nat} {a a' : α} (hbefore : ∀ j < k, f j = none) (h : f k = some a)
    (hbefore' : ∀ j < k', f j = none) (h' : f k' = some a') : k = k' ∧ a = a' := by
  have hk : k = k' := by
    rcases Nat.lt_trichotomy k k' with hlt | heq | hgt
    · rw [hbefore' k hlt] at h
      cases h
    · exact heq
    · rw [hbefore k' hgt] at h'
      cases h'
  subst hk
  exact ⟨rfl, Option.some.inj (h.symm.trans h')⟩

/-- **A poll is confined if its probes are.** -/
theorem Operation.Confined.poll {top : String} {p : Poller} (hi : 0 < p.interval) (condition : String) (timeout : Nat)
    {probe : Nat → Program (Outcome α)} (hprobe : ∀ k, (probe k).Confined top fun _ => True) :
    Operation.Confined top (p.poll condition timeout probe) fun _ => True := by
  have hpolls := fun w : World => World.poll_ends w p condition timeout probe hi
  refine ⟨fun w hw => ?_, fun w hw other hne => ?_, fun _ _ _ _ => trivial, fun w w' hw hw' hpart => ?_⟩
  · obtain ⟨k, x, text, w', -, -, -, rfl, hrun, -⟩ := hpolls w
    have hidle := (hprobe (k + 1)).idle _ (World.idle_atProbe p.interval hprobe hw k)
    unfold World.runOperation at hrun
    rw [hrun]
    exact ⟨hidle.pending, hidle.wellFormed⟩
  · obtain ⟨k, x, text, w', -, -, -, rfl, hrun, -⟩ := hpolls w
    have hothers := (hprobe (k + 1)).others _ (World.idle_atProbe p.interval hprobe hw k) other hne
    rw [World.others_atProbe p.interval hprobe hw hne] at hothers
    unfold World.runOperation at hrun
    rw [hrun]
    exact hothers
  · obtain ⟨k, x, text, left, hbefore, hx, -, rfl, hrun, -⟩ := hpolls w
    obtain ⟨k', x', text', left', hbefore', hx', -, rfl, hrun', -⟩ := hpolls w'
    have hending : w.ending? p condition timeout probe = w'.ending? p condition timeout probe := by
      funext j
      rw [World.ending?, World.ending?, (World.alike_probed p.interval hprobe hw hw' hpart j).1,
        World.waited_alike p.interval hprobe hw hw' hpart j]
    rw [← hending] at hbefore' hx'
    obtain ⟨rfl, rfl⟩ := first_unique hbefore hx hbefore' hx'
    obtain ⟨-, hpart₁, hnow⟩ := World.alike_probed p.interval hprobe hw hw' hpart k
    unfold World.runOperation at hrun hrun'
    rw [hrun, hrun']
    exact ⟨rfl, hpart₁, hnow⟩

end JobHierarchy
