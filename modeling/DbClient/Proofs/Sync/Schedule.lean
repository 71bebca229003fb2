import DbClient.Sync
import Mathlib.Tactic.Lemma

/-! What the steps of a schedule do to a guarded value, and the order in which each thread takes them. A thread makes
its calls one after the other, and in each call it takes one of three ways to the lock. -/
namespace DbClient

namespace Guarded
variable {α : Type} {i : Nat} {g g' : Guarded α} {a : SyncAction α}

/-- What a thread can do in one step. -/
inductive Goes (i : Nat) (g : Guarded α) : SyncAction α → Guarded α → Prop where
  | read {f rest} (ht : g.threads[i]? = some ⟨.idle, f :: rest⟩) :
      Goes i g (.read g.mode) (g.setThread i ⟨.entered g.mode, f :: rest⟩)
  | failed {fs} (ht : g.threads[i]? = some ⟨.trying, fs⟩) : Goes i g .failed (g.setThread i ⟨.counting, fs⟩)
  | counted {fs} (ht : g.threads[i]? = some ⟨.counting, fs⟩) :
      Goes i g .counted { g.setThread i ⟨.warning, fs⟩ with contended := g.contended + 1 }
  | warned {fs} (ht : g.threads[i]? = some ⟨.warning, fs⟩) :
      Goes i g .warned { g.setThread i ⟨.waiting, fs⟩ with warnings := g.warnings + 1 }
  | locked {stage fs} (hs : stage = .trying ∨ stage = .waiting) (ht : g.threads[i]? = some ⟨stage, fs⟩)
      (ho : g.owner = none) : Goes i g .locked { g.setThread i ⟨.holding, fs⟩ with owner := some i }
  | begun {fs} (ht : g.threads[i]? = some ⟨.holding, fs⟩) :
      Goes i g .begun (g.setThread i ⟨.updating g.value, fs⟩)
  | applied {found f rest} (ht : g.threads[i]? = some ⟨.updating found, f :: rest⟩) :
      Goes i g (.applied f) { g.setThread i ⟨.updated, f :: rest⟩ with value := f found }
  | unlocked {f rest} (ht : g.threads[i]? = some ⟨.updated, f :: rest⟩) :
      Goes i g .unlocked { g.setThread i ⟨.idle, rest⟩ with owner := none }

lemma goes_of_take? {stage : Stage α} {fs : List (α → α)} {e : SyncEvent α} (hs : stage = .trying ∨ stage = .waiting)
    (ht : g.threads[i]? = some ⟨stage, fs⟩) (h : g.take? i fs = some (e, g')) :
    e.thread = i ∧ Goes i g e.action g' := by
  unfold take? at h
  split at h
  · next ho =>
    obtain ⟨rfl, rfl⟩ := Prod.mk.inj (Option.some.inj h)
    exact ⟨rfl, .locked hs ht ho⟩
  · cases h

lemma goes_of_refuse {e : SyncEvent α} (h : g.refuse i = some (e, g')) : e.thread = i ∧ Goes i g e.action g' := by
  unfold refuse at h
  split at h
  · next ht =>
    obtain ⟨rfl, rfl⟩ := Prod.mk.inj (Option.some.inj h)
    exact ⟨rfl, .failed ht⟩
  · cases h

lemma goes_of_step {e : SyncEvent α} (h : g.step i = some (e, g')) : e.thread = i ∧ Goes i g e.action g' := by
  unfold step at h
  split at h
  · cases h
  · next stage fs ht =>
    split at h
    · cases h
    · obtain ⟨rfl, rfl⟩ := Prod.mk.inj (Option.some.inj h)
      obtain ⟨f, rest, rfl⟩ := List.exists_cons_of_ne_nil ‹_›
      exact ⟨rfl, .read ht⟩
    · rcases Option.or_eq_some_iff.mp h with htake | ⟨-, hrefuse⟩
      · exact goes_of_take? (.inl rfl) ht htake
      · exact goes_of_refuse hrefuse
    · obtain ⟨rfl, rfl⟩ := Prod.mk.inj (Option.some.inj h)
      exact ⟨rfl, .counted ht⟩
    · obtain ⟨rfl, rfl⟩ := Prod.mk.inj (Option.some.inj h)
      exact ⟨rfl, .warned ht⟩
    · exact goes_of_take? (.inr rfl) ht h
    · obtain ⟨rfl, rfl⟩ := Prod.mk.inj (Option.some.inj h)
      exact ⟨rfl, .begun ht⟩
    · obtain ⟨rfl, rfl⟩ := Prod.mk.inj (Option.some.inj h)
      exact ⟨rfl, .applied ht⟩
    · obtain ⟨rfl, rfl⟩ := Prod.mk.inj (Option.some.inj h)
      exact ⟨rfl, .unlocked ht⟩

/-- A turn changes the mode, passes, or is a step of a thread. -/
lemma turn_cases (g : Guarded α) (t : Turn) : (∃ m, g.turn t = (none, g.setMode m)) ∨ g.turn t = (none, g) ∨
    ∃ i a g', g.turn t = (some ⟨i, a⟩, g') ∧ Goes i g a g' := by
  have hgoes : ∀ (i : Nat) (r : Option (SyncEvent α × Guarded α)),
      (∀ e g', r = some (e, g') → e.thread = i ∧ Goes i g e.action g') →
      (r.map Prod.fst, (r.map Prod.snd).getD g) = (none, g) ∨
        ∃ i a g', (r.map Prod.fst, (r.map Prod.snd).getD g) = (some ⟨i, a⟩, g') ∧ Goes i g a g' := fun i r hr => by
    cases r with
    | none => exact .inl rfl
    | some p =>
      obtain ⟨rfl, hstep⟩ := hr p.1 p.2 rfl
      exact .inr ⟨_, _, _, rfl, hstep⟩
  cases t with
  | mode m => exact .inl ⟨m, rfl⟩
  | thread i => exact .inr (hgoes i _ fun _ _ => goes_of_step)
  | refusal i => exact .inr (hgoes i _ fun _ _ => goes_of_refuse)

/-- What holds after some steps, and through every step and every change of the mode, holds after a schedule as well. -/
lemma run_invariant_from (Holds : List (SyncEvent α) → Guarded α → Prop)
    (hgoes : ∀ {es g i a g'}, Holds es g → Goes i g a g' → Holds (es ++ [⟨i, a⟩]) g')
    (hmode : ∀ {es g} (m : SyncMode), Holds es g → Holds es (g.setMode m)) (turns : List Turn)
    {es : List (SyncEvent α)} (h : Holds es g) : Holds (es ++ (run turns g).1) (run turns g).2 := by
  induction turns generalizing es g with
  | nil => simpa [run] using h
  | cons t turns ih =>
    rcases turn_cases g t with ⟨m, ht⟩ | ht | ⟨i, a, g', ht, hstep⟩
    · simpa [run, ht] using ih (hmode m h)
    · simpa [run, ht] using ih h
    · simpa [run, ht] using ih (hgoes h hstep)

/-- What holds at the start, and through every step and every change of the mode, holds after any schedule. -/
theorem run_invariant (Holds : List (SyncEvent α) → Guarded α → Prop)
    (hgoes : ∀ {es g i a g'}, Holds es g → Goes i g a g' → Holds (es ++ [⟨i, a⟩]) g')
    (hmode : ∀ {es g} (m : SyncMode), Holds es g → Holds es (g.setMode m)) (turns : List Turn) (h : Holds [] g) :
    Holds (run turns g).1 (run turns g).2 :=
  run_invariant_from Holds hgoes hmode turns h

end Guarded

/-! ### The order of a thread -/

/-- How a thread gets to the lock: it waits for it, gets it when it tries, or waits for it after it has tried. -/
inductive Approach where
  | waited
  | tried
  | refused
  deriving Repr, DecidableEq

namespace Approach
variable {α : Type}

def actions : Approach → List (SyncAction α)
  | waited => [.read .safe]
  | tried => [.read .unguarded]
  | refused => [.read .unguarded, .failed, .counted, .warned]

/-- A call of a thread, from its reading of the mode to its release of the lock. -/
def call (w : Approach) (f : α → α) : List (SyncAction α) := w.actions ++ [.locked, .begun, .applied f, .unlocked]

end Approach

namespace SyncThread
variable {α : Type}

/-- What a thread has done of its next call. -/
inductive Underway : SyncThread α → List (SyncAction α) → Prop where
  | idle {fs} : Underway ⟨.idle, fs⟩ []
  | trying {f rest} : Underway ⟨.trying, f :: rest⟩ [.read .unguarded]
  | counting {f rest} : Underway ⟨.counting, f :: rest⟩ [.read .unguarded, .failed]
  | warning {f rest} : Underway ⟨.warning, f :: rest⟩ [.read .unguarded, .failed, .counted]
  | waiting {f rest w} (hw : w ≠ Approach.tried) : Underway ⟨.waiting, f :: rest⟩ w.actions
  | holding {f rest} (w : Approach) : Underway ⟨.holding, f :: rest⟩ (w.actions ++ [.locked])
  | updating {f rest found} (w : Approach) : Underway ⟨.updating found, f :: rest⟩ (w.actions ++ [.locked, .begun])
  | updated {f rest} (w : Approach) : Underway ⟨.updated, f :: rest⟩ (w.actions ++ [.locked, .begun, .applied f])

/-- A thread has made calls with the first of its updates, one after the other, and is in the next one. -/
def Follows (fs : List (α → α)) (as : List (SyncAction α)) (t : SyncThread α) : Prop :=
  ∃ (made : List (Approach × (α → α))) (part : List (SyncAction α)), fs = made.map Prod.snd ++ t.updates ∧
    as = made.flatMap (fun c => c.1.call c.2) ++ part ∧ t.Underway part

variable {fs : List (α → α)} {as : List (SyncAction α)} {t t' : SyncThread α} {a : SyncAction α}

/-- A thread that is in a call has an update left. -/
lemma Follows.updates_ne_nil (h : t.Follows fs as) (hs : t.stage ≠ .idle) : t.updates ≠ [] := by
  obtain ⟨_, _, _, _, hpart⟩ := h
  cases hpart with
  | idle => exact absurd rfl hs
  | _ => exact List.cons_ne_nil _ _

/-- A step within a call. -/
lemma Follows.within (h : t.Follows fs as) (hupdates : t'.updates = t.updates)
    (hpart : ∀ part, t.Underway part → t'.Underway (part ++ [a])) : t'.Follows fs (as ++ [a]) := by
  obtain ⟨made, part, rfl, rfl, hp⟩ := h
  exact ⟨made, part ++ [a], by rw [hupdates], List.append_assoc .., hpart part hp⟩

/-- The step that ends a call. -/
lemma Follows.ended {f : α → α} {rest : List (α → α)} (h : Follows fs as ⟨.updated, f :: rest⟩) :
    Follows fs (as ++ [.unlocked]) ⟨.idle, rest⟩ := by
  obtain ⟨made, part, rfl, rfl, hp⟩ := h
  cases hp with
  | updated w =>
    refine ⟨made ++ [(w, f)], [], ?_, ?_, .idle⟩
    · simp
    · simp [Approach.call]

end SyncThread

namespace Guarded
variable {α : Type} {i : Nat} {g g' : Guarded α} {a : SyncAction α} {es : List (SyncEvent α)}

/-- A step carries on what its thread has done. -/
lemma Goes.follows (h : Goes i g a g') : ∃ t t', g.threads[i]? = some t ∧ g'.threads = g.threads.set i t' ∧
    ∀ fs as, t.Follows fs as → t'.Follows fs (as ++ [a]) := by
  cases h with
  | read ht =>
    refine ⟨_, _, ht, rfl, fun fs as h => h.within rfl fun part hp => ?_⟩
    cases hp
    cases g.mode
    · exact .waiting (w := .waited) nofun
    · exact .trying
  | failed ht =>
    refine ⟨_, _, ht, rfl, fun fs as h => h.within rfl fun part hp => ?_⟩
    cases hp
    exact .counting
  | counted ht =>
    refine ⟨_, _, ht, rfl, fun fs as h => h.within rfl fun part hp => ?_⟩
    cases hp
    exact .warning
  | warned ht =>
    refine ⟨_, _, ht, rfl, fun fs as h => h.within rfl fun part hp => ?_⟩
    cases hp
    exact .waiting (w := .refused) nofun
  | locked hs ht ho =>
    refine ⟨_, _, ht, rfl, fun fs as h => h.within rfl fun part hp => ?_⟩
    rcases hs with rfl | rfl
    · cases hp
      exact .holding .tried
    · cases hp
      exact .holding _
  | begun ht =>
    refine ⟨_, _, ht, rfl, fun fs as h => h.within rfl fun part hp => ?_⟩
    cases hp with
    | holding w =>
      rw [List.append_assoc]
      exact .updating w
  | applied ht =>
    refine ⟨_, _, ht, rfl, fun fs as h => h.within rfl fun part hp => ?_⟩
    cases hp with
    | updating w =>
      rw [List.append_assoc]
      exact .updated w
  | unlocked ht => exact ⟨_, _, ht, rfl, fun fs as h => h.ended⟩

/-- The steps of one thread. -/
def actionsOf (i : Nat) (es : List (SyncEvent α)) : List (SyncAction α) :=
  (es.filter fun e => e.thread = i).map SyncEvent.action

/-- Every thread makes its calls in their order. -/
structure InOrder (calls : List (List (α → α))) (es : List (SyncEvent α)) (g : Guarded α) : Prop where
  length : g.threads.length = calls.length
  follows : ∀ (j : Nat) fs t, calls[j]? = some fs → g.threads[j]? = some t → t.Follows fs (actionsOf j es)

lemma actionsOf_append (j : Nat) (es : List (SyncEvent α)) (i : Nat) (a : SyncAction α) :
    actionsOf j (es ++ [⟨i, a⟩]) = if i = j then actionsOf j es ++ [a] else actionsOf j es := by
  by_cases hj : i = j <;> simp [actionsOf, hj]

lemma InOrder.goes {calls : List (List (α → α))} (h : InOrder calls es g) (hgoes : Goes i g a g') :
    InOrder calls (es ++ [⟨i, a⟩]) g' := by
  obtain ⟨t, t', ht, hthreads, hfollows⟩ := hgoes.follows
  refine ⟨by rw [hthreads, List.length_set, h.length], fun j fs u hfs hu => ?_⟩
  rw [hthreads] at hu
  rw [actionsOf_append]
  by_cases hj : i = j
  · subst hj
    have hi : i < g.threads.length := (List.getElem?_eq_some_iff.mp ht).1
    obtain rfl : t' = u := by simpa [hi] using hu
    rw [if_pos rfl]
    exact hfollows _ _ (h.follows i fs t hfs ht)
  · rw [if_neg hj]
    exact h.follows j fs u hfs (by rwa [List.getElem?_set_ne hj] at hu)

lemma inOrder_share (calls : List (List (α → α))) (g : Guarded α) : InOrder calls [] (g.share calls) := by
  refine ⟨List.length_map .., fun j fs t hfs ht => ?_⟩
  obtain rfl : ⟨.idle, fs⟩ = t := by simpa [share, hfs] using ht
  exact ⟨[], [], rfl, rfl, .idle⟩

/-- Whatever the schedule, every thread makes its calls in their order. -/
lemma inOrder_run (calls : List (List (α → α))) (g : Guarded α) (turns : List Turn) :
    InOrder calls (run turns (g.share calls)).1 (run turns (g.share calls)).2 :=
  run_invariant (InOrder calls) .goes (fun _ h => ⟨h.length, h.follows⟩) turns (inOrder_share calls g)

end Guarded
end DbClient
