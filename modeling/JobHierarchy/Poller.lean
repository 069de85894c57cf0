import JobHierarchy.Program
import JobHierarchy.Settings
/-!
# Polling

A probe says whether what is waited for is there, not there yet, or out of reach. `Poller.poll`
probes at once and then once per interval. After a probe that found nothing it gives up if the
timeout has passed, so the last probe comes no earlier than the timeout, and no later than one
interval (and the time the probe itself took) after it.

The probes are counted in 32 bits, for the log only. What happens to the count after `2 ^ 32 - 1` of
them depends on how the program is built (`Overflow`). `Poller.poll` counts on from zero; it is what
everything else waits with. `Poller.pollUnder` is the poll of either build.
-/

namespace JobHierarchy

/-- What one probe found. -/
inductive Outcome (α : Type) where
  | ready (value : α)
  | notYet
  | failed (error : Error)
  deriving Repr

/-- What a look-up means to someone who waits: an absent item may still come, any other error
will not go away. -/
def Outcome.ofLookup {α : Type} : Except Error (Option α) → Outcome α
  | .ok (some value) => .ready value
  | .ok none => .notYet
  | .error e => if e.isNotFound then .notYet else .failed e

/-- What to do after a probe. -/
inductive Verdict (α : Type) where
  | goOn
  | succeed (value : α)
  | giveUp
  | fail (error : Error)
  deriving Repr

/-- A value counts even when the timeout has passed. -/
def Outcome.verdict {α : Type} (waited timeout : Nat) : Outcome α → Verdict α
  | .ready value => .succeed value
  | .failed e => .fail e
  | .notYet => if timeout ≤ waited then .giveUp else .goOn

/-- What comes after the largest number of 32 bits: zero, or the end of the program. Arithmetic is
checked in builds for development and for tests, not in those for release. -/
inductive Overflow where
  | wraps
  | stops
  deriving DecidableEq, Repr

/-- One more; nothing if the program is stopped. -/
def Overflow.next? : Overflow → UInt32 → Option UInt32
  | .wraps, n => some (n + 1)
  | .stops, n => if n.toNat + 1 < UInt32.size then some (n + 1) else none

/-- Polls at a fixed interval, in milliseconds. -/
structure Poller where
  interval : Nat
  deriving DecidableEq, Repr

namespace Poller

variable {m : Type → Type} [Monad m] {α : Type}

def default : Poller := ⟨defaultPollInterval⟩

instance : Inhabited Poller := ⟨default⟩

/-- As many probes as fit into the timeout, and one after it. -/
def probeBound (p : Poller) (timeout : Nat) : Nat :=
  timeout / max 1 p.interval + 2

def timeoutError (condition : String) (waited : Nat) : Error :=
  .timeout condition (waited * 1000)

/-- What follows a verdict: the poll tells of it and ends, or pauses and goes on with the `rest`. -/
def conclude (w : Waiting m) (p : Poller) (condition : String) (waited : Nat) (attempts : UInt32)
    (rest : ExceptT Error m α) : Verdict α → ExceptT Error m α
  | .goOn => do
    ExceptT.lift (w.sleep p.interval)
    rest
  | .succeed value => do
    ExceptT.lift (w.report
      ⟨.debug, "'" ++ condition ++ "' met after " ++ toString attempts ++ " attempt(s)"⟩)
    return value
  | .giveUp => do
    ExceptT.lift (w.report
      ⟨.debug, "'" ++ condition ++ "' not met after " ++ toString attempts ++ " attempt(s)"⟩)
    throw (timeoutError condition waited)
  | .fail e => do
    ExceptT.lift (w.report
      ⟨.debug, "'" ++ condition ++ "' failed on attempt " ++ toString attempts ++ ": "
        ++ e.message⟩)
    throw e

/-- The probe with the given number and those after it, at most `fuel` of them. Before it `attempts`
have been counted. -/
def probesFrom (w : Waiting m) (count : UInt32 → m UInt32) (p : Poller) (condition : String)
    (timeout started : Nat) (probe : Nat → m (Outcome α)) :
    (fuel number : Nat) → (attempts : UInt32) → ExceptT Error m α
  | 0, _, _ => throw (timeoutError condition timeout)
  | fuel + 1, number, attempts => do
    let attempts ← ExceptT.lift (count attempts)
    let outcome ← ExceptT.lift (probe number)
    let now ← ExceptT.lift w.clock
    let rest := probesFrom w count p condition timeout started probe fuel (number + 1) attempts
    p.conclude w condition (now - started) attempts rest (outcome.verdict (now - started) timeout)

/-- Probes until there is a value, an error, or no time left. Probes are numbered from one, for those
who make them; the count of attempts is kept apart. -/
def pollCounting (w : Waiting m) (count : UInt32 → m UInt32) (p : Poller) (condition : String)
    (timeout : Nat) (probe : Nat → m (Outcome α)) : ExceptT Error m α := do
  let started ← ExceptT.lift w.clock
  probesFrom w count p condition timeout started probe (p.probeBound timeout) 1 0

/-- Counts on, from the largest number to zero. -/
def countOn (n : UInt32) : m UInt32 := pure (n + 1)

/-- Polls with a count that starts again from zero. -/
def pollIn (w : Waiting m) (p : Poller) (condition : String) (timeout : Nat)
    (probe : Nat → m (Outcome α)) : ExceptT Error m α :=
  p.pollCounting w countOn condition timeout probe

/-- A test as a probe. -/
def probeOf (test : Nat → m Bool) (number : Nat) : m (Outcome Unit) := do
  if ← test number then return .ready () else return .notYet

/-- Probes until a test holds. -/
def pollTrueIn (w : Waiting m) (p : Poller) (condition : String) (timeout : Nat)
    (test : Nat → m Bool) : ExceptT Error m Unit :=
  p.pollIn w condition timeout (probeOf test)

/-- Polls by programs. -/
def poll (p : Poller) (condition : String) (timeout : Nat)
    (probe : Nat → Program (Outcome α)) : Operation α :=
  p.pollIn Program.waiting condition timeout probe

/-- Polls a test that is a program. -/
def pollTrue (p : Poller) (condition : String) (timeout : Nat) (test : Nat → Program Bool) :
    Operation Unit :=
  p.pollTrueIn Program.waiting condition timeout test

/-- Waiting as steps of a program that can be stopped. -/
def stoppable : Waiting (OptionT Program) where
  report event := OptionT.lift (Program.waiting.report event)
  sleep millis := OptionT.lift (Program.waiting.sleep millis)
  clock := OptionT.lift Program.waiting.clock

/-- Counts on in either build. -/
def countUnder (overflow : Overflow) (n : UInt32) : OptionT Program UInt32 :=
  OptionT.mk (pure (overflow.next? n))

/-- Polls by programs in either build. There is no result if the count stops the program. -/
def pollUnder (overflow : Overflow) (p : Poller) (condition : String) (timeout : Nat)
    (probe : Nat → Program (Outcome α)) : Program (Option (Except Error α)) :=
  (p.pollCounting stoppable (countUnder overflow) condition timeout fun number =>
    OptionT.lift (probe number)).run.run

/-- Polls a test that is a program in either build. -/
def pollTrueUnder (overflow : Overflow) (p : Poller) (condition : String) (timeout : Nat)
    (test : Nat → Program Bool) : Program (Option (Except Error Unit)) :=
  p.pollUnder overflow condition timeout (probeOf test)

end Poller

end JobHierarchy
