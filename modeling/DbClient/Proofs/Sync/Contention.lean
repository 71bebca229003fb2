import DbClient.Proofs.Sync.Schedule

/-! The count of contentions along a schedule. Each attempt at the lock that fails is counted and warned of once, by
the thread that made it, and only a thread that has read the unguarded mode makes one. -/
namespace DbClient

section Kinds
variable {α : Type}

/-- The stage of a thread that has an attempt to count, -/
def Stage.isUncounted : Stage α → Bool
  | counting => true
  | _ => false

/-- that has an attempt to warn of, -/
def Stage.isUnwarned : Stage α → Bool
  | counting | warning => true
  | _ => false

/-- or that may come to count an attempt. -/
def Stage.isAttempting : Stage α → Bool
  | trying | counting => true
  | _ => false

def SyncAction.isFailed : SyncAction α → Bool
  | failed => true
  | _ => false

def SyncAction.readsUnguarded : SyncAction α → Bool
  | read .unguarded => true
  | _ => false

end Kinds

namespace Guarded
variable {α : Type} {i : Nat} {g g' : Guarded α} {a : SyncAction α} {es : List (SyncEvent α)}

/-- How many threads stand at stages of a kind. -/
def standing (p : Stage α → Bool) (g : Guarded α) : Nat := g.threads.countP fun t => p t.stage

/-- How many of some steps are of a kind. -/
def occurring (p : SyncAction α → Bool) (es : List (SyncEvent α)) : Nat := es.countP fun e => p e.action

/-- A thread that changes its stage is counted at the new one. -/
lemma standing_setThread (p : Stage α → Bool) {t t' : SyncThread α} (ht : g.threads[i]? = some t) :
    (g.setThread i t').standing p + (p t.stage).toNat = g.standing p + (p t'.stage).toNat := by
  obtain ⟨hi, rfl⟩ := List.getElem?_eq_some_iff.mp ht
  have hset := List.countP_set (p := fun t => p t.stage) (l := g.threads) (a := t') hi
  have hpos : p g.threads[i].stage = true → 0 < g.threads.countP fun t => p t.stage := fun hp =>
    List.countP_pos_iff.mpr ⟨_, List.getElem_mem hi, hp⟩
  simp only [standing, setThread, hset]
  cases hold : p g.threads[i].stage <;> cases p t'.stage <;> simp_all

lemma occurring_append (p : SyncAction α → Bool) (es : List (SyncEvent α)) (i : Nat) (a : SyncAction α) :
    occurring p (es ++ [⟨i, a⟩]) = occurring p es + (p a).toNat := by
  cases ha : p a <;> simp [occurring, List.countP_append, ha]

/-- What a step does to the counts, as its thread goes from one stage to the next. -/
lemma Goes.counts (h : Goes i g a g') : ∃ s s' : Stage α,
    (∀ p, g'.standing p + (p s).toNat = g.standing p + (p s').toNat) ∧
    g'.contended + s'.isUncounted.toNat = g.contended + s.isUncounted.toNat + a.isFailed.toNat ∧
    g'.warnings + s'.isUnwarned.toNat = g.warnings + s.isUnwarned.toNat + a.isFailed.toNat ∧
    g.contended ≤ g'.contended ∧
    g'.contended + s'.isAttempting.toNat ≤ g.contended + s.isAttempting.toNat + a.readsUnguarded.toNat := by
  cases h with
  | read ht =>
    refine ⟨_, _, fun p => standing_setThread p ht, ?_⟩
    cases g.mode <;> exact ⟨rfl, rfl, Nat.le_refl _, Nat.le_refl _⟩
  | locked hs ht ho =>
    refine ⟨_, _, fun p => standing_setThread p ht, ?_⟩
    rcases hs with rfl | rfl
    · exact ⟨rfl, rfl, Nat.le_refl _, Nat.le_succ _⟩
    · exact ⟨rfl, rfl, Nat.le_refl _, Nat.le_refl _⟩
  | counted ht => exact ⟨_, _, fun p => standing_setThread p ht, rfl, rfl, Nat.le_succ _, Nat.le_refl _⟩
  | failed ht => exact ⟨_, _, fun p => standing_setThread p ht, rfl, rfl, Nat.le_refl _, Nat.le_refl _⟩
  | warned ht => exact ⟨_, _, fun p => standing_setThread p ht, rfl, rfl, Nat.le_refl _, Nat.le_refl _⟩
  | begun ht => exact ⟨_, _, fun p => standing_setThread p ht, rfl, rfl, Nat.le_refl _, Nat.le_refl _⟩
  | applied ht => exact ⟨_, _, fun p => standing_setThread p ht, rfl, rfl, Nat.le_refl _, Nat.le_refl _⟩
  | unlocked ht => exact ⟨_, _, fun p => standing_setThread p ht, rfl, rfl, Nat.le_refl _, Nat.le_refl _⟩

/-- Each attempt that failed is counted and warned of, or its thread is about to do so. -/
structure Tallied (es : List (SyncEvent α)) (g : Guarded α) : Prop where
  counted : g.contended + g.standing Stage.isUncounted = occurring SyncAction.isFailed es
  warned : g.warnings + g.standing Stage.isUnwarned = occurring SyncAction.isFailed es

lemma Tallied.goes (h : Tallied es g) (hgoes : Goes i g a g') : Tallied (es ++ [⟨i, a⟩]) g' := by
  obtain ⟨s, s', hstanding, hcounted, hwarned, -, -⟩ := hgoes.counts
  have huncounted := hstanding Stage.isUncounted
  have hunwarned := hstanding Stage.isUnwarned
  refine ⟨?_, ?_⟩
  · rw [occurring_append, ← h.counted]
    omega
  · rw [occurring_append, ← h.warned]
    omega

/-- What was counted since a moment: no less than then, and no more than threads came to try the lock. -/
structure Bounded (start : Guarded α) (es : List (SyncEvent α)) (g : Guarded α) : Prop where
  least : start.contended ≤ g.contended
  most : g.contended + g.standing Stage.isAttempting ≤
    start.contended + start.standing Stage.isAttempting + occurring SyncAction.readsUnguarded es

lemma Bounded.goes {start : Guarded α} (h : Bounded start es g) (hgoes : Goes i g a g') :
    Bounded start (es ++ [⟨i, a⟩]) g' := by
  obtain ⟨s, s', hstanding, -, -, hleast, hmost⟩ := hgoes.counts
  have hattempting := hstanding Stage.isAttempting
  have hold := h.most
  refine ⟨Nat.le_trans h.least hleast, ?_⟩
  rw [occurring_append]
  omega

/-- Threads that have just been given their updates stand at no other stage. -/
lemma standing_share (p : Stage α → Bool) (hp : p .idle = false) (calls : List (List (α → α))) (g : Guarded α) :
    (g.share calls).standing p = 0 := by
  refine List.countP_eq_zero.mpr fun t ht => ?_
  obtain ⟨fs, -, rfl⟩ := List.mem_map.mp ht
  simp [hp]

lemma tallied_run (mode : SyncMode) (value : α) (calls : List (List (α → α))) (turns : List Turn) :
    Tallied (run turns ((new mode value).share calls)).1 (run turns ((new mode value).share calls)).2 := by
  have hstart : Tallied [] ((new mode value).share calls) :=
    ⟨congrArg (0 + ·) (standing_share _ rfl calls _), congrArg (0 + ·) (standing_share _ rfl calls _)⟩
  exact run_invariant Tallied .goes (fun _ h => ⟨h.counted, h.warned⟩) turns hstart

lemma bounded_run (g : Guarded α) (turns : List Turn) : Bounded g (run turns g).1 (run turns g).2 :=
  run_invariant (Bounded g) .goes (fun _ h => ⟨h.least, h.most⟩) turns ⟨Nat.le_refl _, Nat.le_refl _⟩

/-- While every thread finds the safe mode, and none was about to try the lock before, nothing is counted. -/
theorem contended_run (g : Guarded α) (turns : List Turn) (hg : g.standing Stage.isAttempting = 0)
    (hr : occurring SyncAction.readsUnguarded (run turns g).1 = 0) : (run turns g).2.contended = g.contended := by
  obtain ⟨hleast, hmost⟩ := bounded_run g turns
  omega

end Guarded
end DbClient
