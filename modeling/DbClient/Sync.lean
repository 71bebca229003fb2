import DbClient.Kind

/-! Values shared between threads under a switchable discipline. In the safe mode a thread waits for
the lock; in the unguarded mode it tries first, and when it does not get the lock it counts the
contention and warns before it waits. Threads take their steps in any order that a schedule gives. -/
namespace DbClient

/-- Where a thread stands in an access to the shared value. -/
inductive Stage (α : Type) where
  /-- Between two accesses. -/
  | idle
  /-- About to try the lock. -/
  | trying
  /-- About to count an attempt that has failed. -/
  | counting
  /-- About to warn of contention that is counted already. -/
  | warning
  /-- Waiting for the lock. -/
  | waiting
  /-- Holding the lock, before its update. -/
  | holding
  /-- Holding the lock, with its update of the value that was found under way. -/
  | updating (found : α)
  /-- Holding the lock, after its update. -/
  | updated
  deriving Repr, DecidableEq

/-- The stage that follows when the mode has been read. -/
def Stage.entered {α : Type} : SyncMode → Stage α
  | .safe => waiting
  | .unguarded => trying

/-- A thread: its stage and the updates it has still to make, one for each access. -/
structure SyncThread (α : Type) where
  stage : Stage α
  updates : List (α → α)

/-- What a thread does in one step. -/
inductive SyncAction (α : Type) where
  | read (mode : SyncMode)
  /-- The lock is tried in vain. -/
  | failed
  | counted
  | warned
  | locked
  /-- An update of the present value is begun, -/
  | begun
  /-- and its result becomes the value. -/
  | applied (f : α → α)
  | unlocked

/-- A step of a thread. -/
structure SyncEvent (α : Type) where
  thread : Nat
  action : SyncAction α

/-- A shared value with its lock, its mode, the count of contentions and of warnings, and the
threads that use it. -/
structure Guarded (α : Type) where
  mode : SyncMode
  contended : Nat
  warnings : Nat
  owner : Option Nat
  value : α
  threads : List (SyncThread α)

namespace Guarded
variable {α : Type}

def new (mode : SyncMode) (value : α) : Guarded α := ⟨mode, 0, 0, none, value, []⟩

def setMode (mode : SyncMode) (g : Guarded α) : Guarded α := { g with mode := mode }

def setThread (i : Nat) (t : SyncThread α) (g : Guarded α) : Guarded α :=
  { g with threads := g.threads.set i t }

/-- Shares the value between threads, each with updates to make one after the other. -/
def share (updates : List (List (α → α))) (g : Guarded α) : Guarded α :=
  { g with threads := updates.map fun fs => ⟨.idle, fs⟩ }

/-- A thread that wants the lock gets it if it is free. -/
def take? (i : Nat) (fs : List (α → α)) (g : Guarded α) : Option (SyncEvent α × Guarded α) :=
  match g.owner with
  | none => some (⟨i, .locked⟩, { g.setThread i ⟨.holding, fs⟩ with owner := some i })
  | some _ => none

/-- The attempt of a thread at the lock fails; it need not be taken for that. -/
def refuse (i : Nat) (g : Guarded α) : Option (SyncEvent α × Guarded α) :=
  match g.threads[i]? with
  | some ⟨.trying, fs⟩ => some (⟨i, .failed⟩, g.setThread i ⟨.counting, fs⟩)
  | _ => none

/-- One step of a thread; none if it has nothing to do or has to wait for the lock. -/
def step (i : Nat) (g : Guarded α) : Option (SyncEvent α × Guarded α) :=
  match g.threads[i]? with
  | none => none
  | some ⟨stage, fs⟩ =>
    match stage, fs with
    | _, [] => none
    | .idle, _ => some (⟨i, .read g.mode⟩, g.setThread i ⟨.entered g.mode, fs⟩)
    | .trying, _ => (g.take? i fs).or (g.refuse i)
    | .counting, _ =>
      some (⟨i, .counted⟩, { g.setThread i ⟨.warning, fs⟩ with contended := g.contended + 1 })
    | .warning, _ =>
      some (⟨i, .warned⟩, { g.setThread i ⟨.waiting, fs⟩ with warnings := g.warnings + 1 })
    | .waiting, _ => g.take? i fs
    | .holding, _ => some (⟨i, .begun⟩, g.setThread i ⟨.updating g.value, fs⟩)
    | .updating found, f :: _ =>
      some (⟨i, .applied f⟩, { g.setThread i ⟨.updated, fs⟩ with value := f found })
    | .updated, _ :: rest => some (⟨i, .unlocked⟩, { g.setThread i ⟨.idle, rest⟩ with owner := none })

/-- What a schedule lists: a step of a thread, an attempt at the lock that fails, or a change of the
mode. -/
inductive Turn where
  | thread (i : Nat)
  | refusal (i : Nat)
  | mode (m : SyncMode)
  deriving Repr, DecidableEq

/-- What happens in a turn, and the value after it; a thread that cannot step lets its turn pass. -/
def turn (g : Guarded α) : Turn → Option (SyncEvent α) × Guarded α
  | .thread i => ((g.step i).map Prod.fst, ((g.step i).map Prod.snd).getD g)
  | .refusal i => ((g.refuse i).map Prod.fst, ((g.refuse i).map Prod.snd).getD g)
  | .mode m => (none, g.setMode m)

/-- Runs a schedule. Gives the steps that were taken, in order. -/
def run : List Turn → Guarded α → List (SyncEvent α) × Guarded α
  | [], g => ([], g)
  | t :: rest, g =>
    let (e, g) := g.turn t
    let (es, g) := run rest g
    (e.toList ++ es, g)

/-- Runs threads with one update each, by a schedule that brings all of them to their end. -/
def runThreads (updates : List (α → α)) (schedule : List Turn) (g : Guarded α) : Guarded α :=
  { (run schedule (g.share (updates.map fun f => [f]))).2 with threads := [] }

/-- The turns of one thread. -/
def turns (count i : Nat) : List Turn := List.replicate count (.thread i)

/-- Updates the value from a single thread. -/
def update (f : α → α) (g : Guarded α) : Guarded α := runThreads [f] (turns 5 0) g

/-- Thread zero takes the lock; the threads `1 … n` come for it, go as far as they can, and proceed
after it has let go. -/
def contendSchedule (n : Nat) : List Turn :=
  turns 2 0 ++ (List.range' 1 n).flatMap (turns 4) ++ turns 3 0 ++ (List.range' 1 n).flatMap (turns 4)

/-- One thread updates the value while `n` others wait to do so. -/
def contend (n : Nat) (first others : α → α) (g : Guarded α) : Guarded α :=
  runThreads (first :: List.replicate n others) (contendSchedule n) g

end Guarded
end DbClient
