import JobHierarchy.Log
import JobHierarchy.Request
/-!
# Programs over requests

An operation on a job server is a `Program`: a tree that says which request to make next, given the
answers so far. It can also report an event, pause, and read the clock. What the requests mean is
left to a `Handler`; `Program.run` follows a program under one. The same program can so be run on a
server kept in memory, over a network, or one request at a time beside other programs.

A program always ends. A loop whose length depends on how many items there are asks the handler for
a bound with `census`.
-/

namespace JobHierarchy

inductive Program (α : Type) where
  | done (value : α)
  | request (r : Request) (next : Except Error r.Answer → Program α)
  | report (event : LogEvent) (next : Program α)
  | sleep (millis : Nat) (next : Program α)
  | clock (next : Nat → Program α)
  | census (next : Nat → Program α)

namespace Program

variable {α β : Type}

def bind : Program α → (α → Program β) → Program β
  | .done value, f => f value
  | .request r next, f => .request r fun answer => (next answer).bind f
  | .report event next, f => .report event (next.bind f)
  | .sleep millis next, f => .sleep millis (next.bind f)
  | .clock next, f => .clock fun t => (next t).bind f
  | .census next, f => .census fun n => (next n).bind f

instance : Monad Program where
  pure := .done
  bind := .bind

@[simp] theorem pure_eq (value : α) : (pure value : Program α) = .done value := rfl

@[simp] theorem done_bind (value : α) (f : α → Program β) : (Program.done value >>= f) = f value :=
  rfl

@[simp] theorem request_bind (r : Request) (next : Except Error r.Answer → Program α)
    (f : α → Program β) :
    (Program.request r next >>= f) = .request r fun answer => next answer >>= f := rfl

@[simp] theorem report_bind (event : LogEvent) (next : Program α) (f : α → Program β) :
    (Program.report event next >>= f) = .report event (next >>= f) := rfl

@[simp] theorem sleep_bind (millis : Nat) (next : Program α) (f : α → Program β) :
    (Program.sleep millis next >>= f) = .sleep millis (next >>= f) := rfl

@[simp] theorem clock_bind (next : Nat → Program α) (f : α → Program β) :
    (Program.clock next >>= f) = .clock fun t => next t >>= f := rfl

@[simp] theorem census_bind (next : Nat → Program α) (f : α → Program β) :
    (Program.census next >>= f) = .census fun n => next n >>= f := rfl

theorem bind_pure_eq (p : Program α) : p.bind .done = p := by
  induction p with
  | done => rfl
  | request r next ih => simp only [Program.bind]; congr 1; funext answer; exact ih answer
  | report event next ih => simp only [Program.bind]; rw [ih]
  | sleep millis next ih => simp only [Program.bind]; rw [ih]
  | clock next ih => simp only [Program.bind]; congr 1; funext t; exact ih t
  | census next ih => simp only [Program.bind]; congr 1; funext n; exact ih n

theorem bind_bind {γ : Type} (p : Program α) (f : α → Program β) (g : β → Program γ) :
    (p.bind f).bind g = p.bind fun a => (f a).bind g := by
  induction p with
  | done => rfl
  | request r next ih => simp only [Program.bind]; congr 1; funext answer; exact ih answer
  | report event next ih => simp only [Program.bind]; rw [ih]
  | sleep millis next ih => simp only [Program.bind]; rw [ih]
  | clock next ih => simp only [Program.bind]; congr 1; funext t; exact ih t
  | census next ih => simp only [Program.bind]; congr 1; funext n; exact ih n

instance : LawfulMonad Program :=
  LawfulMonad.mk' Program bind_pure_eq (fun _ _ => rfl) bind_bind

end Program

/-- What someone who waits does besides looking. -/
structure Waiting (m : Type → Type) where
  report : LogEvent → m Unit
  /-- Passes a number of milliseconds. -/
  sleep : Nat → m Unit
  /-- The time in milliseconds. -/
  clock : m Nat

/-- How a monad carries out the steps of a program. -/
structure Handler (m : Type → Type) extends Waiting m where
  perform : (r : Request) → m (Except Error r.Answer)
  /-- A bound on the number of items that the server holds. -/
  census : m Nat

/-- Waiting as steps of a program. -/
def Program.waiting : Waiting Program where
  report event := .report event (.done ())
  sleep millis := .sleep millis (.done ())
  clock := .clock .done

namespace Program

variable {m : Type → Type} [Monad m] {α β : Type}

/-- Follows a program under a handler. -/
def run (h : Handler m) : Program α → m α
  | .done value => pure value
  | .request r next => do run h (next (← h.perform r))
  | .report event next => do h.report event; run h next
  | .sleep millis next => do h.sleep millis; run h next
  | .clock next => do run h (next (← h.clock))
  | .census next => do run h (next (← h.census))

@[simp] theorem run_done (h : Handler m) (value : α) : run h (.done value) = pure value := rfl

/-- A run of two programs in a row is the two runs in a row. -/
theorem run_bind [LawfulMonad m] (h : Handler m) (p : Program α) (f : α → Program β) :
    run h (p >>= f) = run h p >>= fun a => run h (f a) := by
  induction p with
  | done value => simp
  | request r next ih => simp [run, ih]
  | report event next ih => simp [run, ih]
  | sleep millis next ih => simp [run, ih]
  | clock next ih => simp [run, ih]
  | census next ih => simp [run, ih]

end Program

/-- A program that can fail. -/
abbrev Operation := ExceptT Error Program

namespace Operation

variable {α : Type}

/-- One request; its error ends the operation. -/
def ask (r : Request) : Operation r.Answer :=
  ExceptT.mk (.request r .done)

def report (level : LogLevel) (text : String) : Operation Unit :=
  ExceptT.lift (.report ⟨level, text⟩ (.done ()))

def reportAll (events : List LogEvent) : Operation Unit :=
  events.forM fun e => ExceptT.lift (.report e (.done ()))

def ofExcept (x : Except Error α) : Operation α := ExceptT.mk (.done x)

/-- A bound on the number of items that the server holds. -/
def census : Operation Nat := ExceptT.lift (.census .done)

/-- The outcome of an operation as a value, so that its error ends nothing. -/
def outcome (t : Operation α) : Operation (Except Error α) := ExceptT.lift t.run

theorem run_outcome (t : Operation α) : (outcome t).run = t.run >>= fun x => pure (.ok x) :=
  map_eq_pure_bind _ _

end Operation

end JobHierarchy
