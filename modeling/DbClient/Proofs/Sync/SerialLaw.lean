import DbClient.Proofs.Sync.Contention
import Mathlib.Algebra.BigOperators.Group.List.Basic

/-! Threads that share a guarded value, under any schedule of their steps and any changes of the mode. Of the mutex it
is assumed that it is never given to a second thread, and nothing else: an attempt at it may fail at any time. -/
namespace DbClient

section Kinds
variable {α : Type}

def Stage.isInside : Stage α → Bool
  | holding | updating _ | updated => true
  | _ => false

def SyncAction.isInside : SyncAction α → Bool
  | locked | begun | applied _ | unlocked => true
  | _ => false

/-- The function that a step applies. -/
def SyncAction.applied? : SyncAction α → Option (α → α)
  | applied f => some f
  | _ => none

/-- The updates that a thread has not applied. -/
def SyncThread.unapplied (t : SyncThread α) : List (α → α) :=
  match t.stage with
  | .updated => t.updates.tail
  | _ => t.updates

end Kinds

namespace Guarded
variable {α : Type} {i : Nat} {g g' : Guarded α} {a : SyncAction α} {es part : List (SyncEvent α)} {t t' : SyncThread α}

/-- What a thread does under the lock in one call. -/
def access (i : Nat) (f : α → α) : List (SyncEvent α) := [⟨i, .locked⟩, ⟨i, .begun⟩, ⟨i, .applied f⟩, ⟨i, .unlocked⟩]

/-- The steps that are taken under the lock, -/
def inside (es : List (SyncEvent α)) : List (SyncEvent α) := es.filter fun e => e.action.isInside

/-- and the functions that are applied there. -/
def appliedIn (es : List (SyncEvent α)) : List (α → α) := es.filterMap fun e => e.action.applied?

lemma inside_append (es : List (SyncEvent α)) (i : Nat) (a : SyncAction α) :
    inside (es ++ [⟨i, a⟩]) = inside es ++ if a.isInside then [⟨i, a⟩] else [] := by
  simp only [inside, List.filter_append, List.filter_cons, List.filter_nil]

lemma appliedIn_append (es : List (SyncEvent α)) (i : Nat) (a : SyncAction α) :
    appliedIn (es ++ [⟨i, a⟩]) = appliedIn es ++ a.applied?.toList := by
  rw [appliedIn, List.filterMap_append, appliedIn]
  cases ha : a.applied? <;> simp [ha]

/-! ### One at a time -/

/-- What the owner of the lock has done under it, if it has an owner. -/
inductive Occupied (g : Guarded α) : List (SyncEvent α) → Prop where
  | free (ho : g.owner = none) : Occupied g []
  | holding {i fs} (ho : g.owner = some i) (ht : g.threads[i]? = some ⟨.holding, fs⟩) : Occupied g [⟨i, .locked⟩]
  | updating {i fs} (ho : g.owner = some i) (ht : g.threads[i]? = some ⟨.updating g.value, fs⟩) :
      Occupied g [⟨i, .locked⟩, ⟨i, .begun⟩]
  | updated {i f rest} (ho : g.owner = some i) (ht : g.threads[i]? = some ⟨.updated, f :: rest⟩) :
      Occupied g [⟨i, .locked⟩, ⟨i, .begun⟩, ⟨i, .applied f⟩]

/-- The accesses to the value come one after the other, and the value is what they have made of it. -/
structure Serial (value : α) (es : List (SyncEvent α)) (g : Guarded α) : Prop where
  exclusive : ∀ (j : Nat) t, g.threads[j]? = some t → t.stage.isInside = true → g.owner = some j
  accesses : ∃ (made : List (Nat × (α → α))) (part : List (SyncEvent α)),
    inside es = made.flatMap (fun c => access c.1 c.2) ++ part ∧ Occupied g part
  value : g.value = (appliedIn es).foldl (fun x f => f x) value

/-- Threads at other stages leave the owner of the lock alone. -/
lemma Occupied.outside (h : Occupied g part) (ht : g.threads[i]? = some t) (hs : t.stage.isInside = false)
    (howner : g'.owner = g.owner) (hvalue : g'.value = g.value) (hthreads : g'.threads = g.threads.set i t') :
    Occupied g' part := by
  have hother : ∀ (j : Nat) u, g.threads[j]? = some u → u.stage.isInside = true → g'.threads[j]? = some u :=
    fun j u hu hinside => by
      have hj : i ≠ j := fun hj => by
        obtain rfl : t = u := Option.some.inj (ht.symm.trans (hj ▸ hu))
        exact absurd (hs.symm.trans hinside) nofun
      rwa [hthreads, List.getElem?_set_ne hj]
  cases h with
  | free ho => exact .free (howner.trans ho)
  | holding ho hu => exact .holding (howner.trans ho) (hother _ _ hu rfl)
  | updating ho hu => exact .updating (howner.trans ho) (hvalue ▸ hother _ _ hu rfl)
  | updated ho hu => exact .updated (howner.trans ho) (hother _ _ hu rfl)

/-- What has been done under the lock is told by the stage of its owner. -/
lemma Occupied.owned (h : Occupied g part) (ho : g.owner = some i) (ht : g.threads[i]? = some t) :
    (∃ fs, t = ⟨.holding, fs⟩ ∧ part = [⟨i, .locked⟩]) ∨
    (∃ fs, t = ⟨.updating g.value, fs⟩ ∧ part = [⟨i, .locked⟩, ⟨i, .begun⟩]) ∨
    (∃ f rest, t = ⟨.updated, f :: rest⟩ ∧ part = [⟨i, .locked⟩, ⟨i, .begun⟩, ⟨i, .applied f⟩]) := by
  cases h with
  | free hfree => cases hfree.symm.trans ho
  | holding hj hu =>
    cases hj.symm.trans ho
    exact .inl ⟨_, Option.some.inj (ht.symm.trans hu), rfl⟩
  | updating hj hu =>
    cases hj.symm.trans ho
    exact .inr (.inl ⟨_, Option.some.inj (ht.symm.trans hu), rfl⟩)
  | updated hj hu =>
    cases hj.symm.trans ho
    exact .inr (.inr ⟨_, _, Option.some.inj (ht.symm.trans hu), rfl⟩)

lemma lookup_setThread (ht : g.threads[i]? = some t) (t' : SyncThread α) :
    (g.setThread i t').threads[i]? = some t' := by
  have hlt : i < g.threads.length := (List.getElem?_eq_some_iff.mp ht).1
  simp [setThread, hlt]

section Exclusive
variable {value : α}

/-- A thread that changes its stage has the lock if it comes to hold it, and takes it from no other. -/
lemma Serial.exclusive_set (h : Serial value es g) (hi : g.threads[i]? = some t)
    (hthreads : g'.threads = g.threads.set i t') (hown : t'.stage.isInside = true → g'.owner = some i)
    (hother : ∀ j, i ≠ j → g.owner = some j → g'.owner = some j) (j : Nat) (u : SyncThread α)
    (hu : g'.threads[j]? = some u) (hinside : u.stage.isInside = true) : g'.owner = some j := by
  rw [hthreads] at hu
  by_cases hj : i = j
  · subst hj
    have hlt : i < g.threads.length := (List.getElem?_eq_some_iff.mp hi).1
    obtain rfl : t' = u := by simpa [hlt] using hu
    exact hown hinside
  · rw [List.getElem?_set_ne hj] at hu
    exact hother j hj (h.exclusive j u hu hinside)

/-- A step that is taken without the lock. -/
lemma Serial.outside (h : Serial value es g) (ht : g.threads[i]? = some t) (hs : t.stage.isInside = false)
    (hs' : t'.stage.isInside = false) (howner : g'.owner = g.owner) (hvalue : g'.value = g.value)
    (hthreads : g'.threads = g.threads.set i t') (ha : a.isInside = false) (hnone : a.applied? = none) :
    Serial value (es ++ [⟨i, a⟩]) g' := by
  obtain ⟨made, part, hinside, hpart⟩ := h.accesses
  refine ⟨h.exclusive_set ht hthreads (fun hin => absurd (hs'.symm.trans hin) nofun) fun j _ hj => howner.trans hj,
    ⟨made, part, ?_, hpart.outside ht hs howner hvalue hthreads⟩, ?_⟩
  · simpa [inside_append, ha] using hinside
  · simpa [appliedIn_append, hnone, hvalue] using h.value

/-- A step that is taken under the lock, within an access. -/
lemma Serial.within (h : Serial value es g) (ht : g.threads[i]? = some t) (howner : g'.owner = some i)
    (hthreads : g'.threads = g.threads.set i t') (hother : ∀ j, i ≠ j → g.owner ≠ some j) (ha : a.isInside = true)
    (hpart : ∀ part, Occupied g part → Occupied g' (part ++ [⟨i, a⟩]))
    (hvalue : g'.value = a.applied?.toList.foldl (fun x f => f x) g.value) : Serial value (es ++ [⟨i, a⟩]) g' := by
  obtain ⟨made, part, hinside, hold⟩ := h.accesses
  refine ⟨h.exclusive_set ht hthreads (fun _ => howner) fun j hj howned => absurd howned (hother j hj),
    ⟨made, part ++ [⟨i, a⟩], ?_, hpart part hold⟩, ?_⟩
  · rw [inside_append, hinside, if_pos ha, List.append_assoc]
  · rw [appliedIn_append, List.foldl_append, ← h.value, hvalue]

/-- The step that ends an access. -/
lemma Serial.ended {f : α → α} {rest : List (α → α)} (h : Serial value es g)
    (ht : g.threads[i]? = some ⟨.updated, f :: rest⟩) :
    Serial value (es ++ [⟨i, .unlocked⟩]) { g.setThread i ⟨.idle, rest⟩ with owner := none } := by
  have howner : g.owner = some i := h.exclusive i _ ht rfl
  obtain ⟨made, part, hinside, hpart⟩ := h.accesses
  refine ⟨h.exclusive_set ht rfl nofun fun j hj howned => absurd (Option.some.inj (howner.symm.trans howned)) hj,
    ⟨made ++ [(i, f)], [], ?_, .free rfl⟩, ?_⟩
  · rcases hpart.owned howner ht with ⟨_, hstage, rfl⟩ | ⟨_, hstage, rfl⟩ | ⟨_, _, hstage, rfl⟩
    · cases hstage
    · cases hstage
    · cases hstage
      rw [inside_append, hinside]
      simp [access, SyncAction.isInside]
  · have hnone : appliedIn (es ++ [⟨i, .unlocked⟩]) = appliedIn es := by simp [appliedIn_append, SyncAction.applied?]
    rw [hnone]
    exact h.value

/-- Each step leaves the accesses one after the other. -/
theorem Serial.goes (h : Serial value es g) (hgoes : Goes i g a g') : Serial value (es ++ [⟨i, a⟩]) g' := by
  cases hgoes with
  | read ht => exact h.outside ht rfl (by cases g.mode <;> rfl) rfl rfl rfl rfl rfl
  | failed ht => exact h.outside ht rfl rfl rfl rfl rfl rfl rfl
  | counted ht => exact h.outside ht rfl rfl rfl rfl rfl rfl rfl
  | warned ht => exact h.outside ht rfl rfl rfl rfl rfl rfl rfl
  | locked hs ht ho =>
    refine h.within ht rfl rfl (fun j _ hj => nomatch ho.symm.trans hj) rfl (fun part hpart => ?_) rfl
    cases hpart with
    | free => exact .holding rfl (lookup_setThread ht _)
    | holding hj | updating hj | updated hj => cases ho.symm.trans hj
  | begun ht =>
    have howner : g.owner = some i := h.exclusive i _ ht rfl
    refine h.within ht howner rfl (fun j hj howned => hj (Option.some.inj (howner.symm.trans howned))) rfl
      (fun part hpart => ?_) rfl
    rcases hpart.owned howner ht with ⟨_, hstage, rfl⟩ | ⟨_, hstage, rfl⟩ | ⟨_, _, hstage, rfl⟩
    · exact .updating howner (lookup_setThread ht _)
    · cases hstage
    · cases hstage
  | applied ht =>
    have howner : g.owner = some i := h.exclusive i _ ht rfl
    obtain ⟨-, _, -, hnow⟩ := h.accesses
    rcases hnow.owned howner ht with ⟨_, hstage, -⟩ | ⟨_, hstage, -⟩ | ⟨_, _, hstage, -⟩
    · cases hstage
    · -- The value that was found is the present one, as nobody else has had the lock since.
      cases hstage
      refine h.within ht howner rfl (fun j hj howned => hj (Option.some.inj (howner.symm.trans howned))) rfl
        (fun part hpart => ?_) rfl
      rcases hpart.owned howner ht with ⟨_, hstage, rfl⟩ | ⟨_, hstage, rfl⟩ | ⟨_, _, hstage, rfl⟩
      · cases hstage
      · exact .updated howner (lookup_setThread ht _)
      · cases hstage
    · cases hstage
  | unlocked ht => exact h.ended ht

lemma Serial.setMode (m : SyncMode) (h : Serial value es g) : Serial value es (g.setMode m) := by
  obtain ⟨made, part, hinside, hpart⟩ := h.accesses
  refine ⟨h.exclusive, ⟨made, part, hinside, ?_⟩, h.value⟩
  cases hpart with
  | free ho => exact .free ho
  | holding ho ht => exact .holding ho ht
  | updating ho ht => exact .updating ho ht
  | updated ho ht => exact .updated ho ht

lemma serial_share (mode : SyncMode) (value : α) (calls : List (List (α → α))) :
    Serial value [] ((new mode value).share calls) := by
  refine ⟨fun j t ht hinside => ?_, ⟨[], [], rfl, .free rfl⟩, rfl⟩
  obtain ⟨fs, -, rfl⟩ := List.mem_map.mp (List.mem_of_getElem? ht)
  cases hinside

lemma serial_run (mode : SyncMode) (value : α) (calls : List (List (α → α))) (turns : List Turn) :
    Serial value (run turns ((new mode value).share calls)).1 (run turns ((new mode value).share calls)).2 :=
  run_invariant (Serial value) .goes .setMode turns (serial_share mode value calls)

end Exclusive

/-! ### Exactly once -/

/-- What has been applied and what is still to be applied are the functions of all calls. -/
def Once (calls : List (List (α → α))) (es : List (SyncEvent α)) (g : Guarded α) : Prop :=
  (appliedIn es ++ g.threads.flatMap SyncThread.unapplied).Perm calls.flatten

/-- A step applies the first of the functions that its thread has not applied, or none. -/
lemma Goes.unapplied (h : Goes i g a g') : ∃ t t', g.threads[i]? = some t ∧ g'.threads = g.threads.set i t' ∧
    t.unapplied = a.applied?.toList ++ t'.unapplied := by
  cases h with
  | read ht =>
    refine ⟨_, _, ht, rfl, ?_⟩
    cases g.mode <;> rfl
  | locked hs ht =>
    refine ⟨_, _, ht, rfl, ?_⟩
    rcases hs with rfl | rfl <;> rfl
  | failed ht | counted ht | warned ht | begun ht | applied ht | unlocked ht => exact ⟨_, _, ht, rfl, rfl⟩

lemma Once.goes {calls : List (List (α → α))} (h : Once calls es g) (hgoes : Goes i g a g') :
    Once calls (es ++ [⟨i, a⟩]) g' := by
  obtain ⟨t, t', ht, hthreads, hunapplied⟩ := hgoes.unapplied
  obtain ⟨hlt, rfl⟩ := List.getElem?_eq_some_iff.mp ht
  have hold : g.threads = g.threads.take i ++ g.threads[i] :: g.threads.drop (i + 1) := by
    rw [← List.drop_eq_getElem_cons hlt, List.take_append_drop]
  refine List.Perm.trans ?_ h
  rw [appliedIn_append, hthreads, List.set_eq_take_append_cons_drop, if_pos hlt]
  conv_rhs => rw [hold]
  simp only [List.flatMap_append, List.flatMap_cons, hunapplied, List.append_assoc]
  exact (List.perm_append_comm_assoc _ _ _).append_left _

lemma once_run (calls : List (List (α → α))) (g : Guarded α) (turns : List Turn) :
    Once calls (run turns (g.share calls)).1 (run turns (g.share calls)).2 := by
  have hstart : Once calls [] (g.share calls) := by
    have hall : (g.share calls).threads.flatMap SyncThread.unapplied = calls.flatten := by
      rw [share, List.flatMap_map, List.flatten_eq_flatMap]
      rfl
    rw [Once, hall]
    exact List.Perm.refl _
  exact run_invariant (Once calls) .goes (fun _ h => h) turns hstart

/-- What the functions add to a measure of the value, they add whatever their order. -/
lemma measure_foldl {β : Type} [AddCommMonoid β] {measure : α → β} {amount : (α → α) → β} {fs : List (α → α)}
    (h : ∀ f ∈ fs, ∀ x, measure (f x) = measure x + amount f) (x : α) :
    measure (fs.foldl (fun x f => f x) x) = measure x + (fs.map amount).sum := by
  induction fs generalizing x with
  | nil => simp
  | cons f fs ih =>
    rw [List.foldl_cons, ih (fun f hf => h f (List.mem_cons_of_mem _ hf)), h f List.mem_cons_self, List.map_cons,
      List.sum_cons, add_assoc]

/-- A thread with an update left can step, unless it waits for a lock that is taken. -/
lemma step_isSome {stage : Stage α} {f : α → α} {rest : List (α → α)} (ht : g.threads[i]? = some ⟨stage, f :: rest⟩)
    (hs : stage = .waiting → g.owner = none) : (g.step i).isSome = true := by
  cases stage with
  | waiting => simp [step, ht, take?, hs rfl]
  | trying => cases ho : g.owner <;> simp [step, ht, take?, refuse, ho]
  | _ => simp [step, ht]

/-- What threads do to a value that they share, and the counts that are kept of it. -/
structure SerialLaw (value : α) (calls : List (List (α → α))) (es : List (SyncEvent α)) (g : Guarded α) : Prop where
  /-- Two threads are never under the lock at once. -/
  exclusive : ∀ (i j : Nat) (t u : SyncThread α), g.threads[i]? = some t → g.threads[j]? = some u →
    t.stage.isInside = true → u.stage.isInside = true → i = j
  /-- The accesses come one after the other, and each function is applied to what the one before it has left. -/
  serial : Serial value es g
  /-- Each thread makes its calls in order, and each call that is over has applied its function once. -/
  order : InOrder calls es g
  /-- What is applied, and what is not yet, are the functions of all calls. -/
  once : Once calls es g
  /-- So what the functions add to any measure of the value sums up exactly. -/
  sums : ∀ {β : Type} [AddCommMonoid β] (measure : α → β) (amount : (α → α) → β),
    (∀ f ∈ calls.flatten, ∀ x, measure (f x) = measure x + amount f) →
    measure g.value + ((g.threads.flatMap SyncThread.unapplied).map amount).sum =
      measure value + (calls.flatten.map amount).sum
  /-- Each attempt at the lock that failed is counted and warned of, or about to be. -/
  tallied : Tallied es g
  /-- If no thread has found the unguarded mode, nothing is counted, -/
  safe : occurring SyncAction.readsUnguarded es = 0 → g.contended = 0
  /-- and nothing more is counted while no thread finds it, if none that has found it is about to try the lock. -/
  quiet : ∀ later, g.standing Stage.isAttempting = 0 →
    occurring SyncAction.readsUnguarded (run later g).1 = 0 → (run later g).2.contended = g.contended
  /-- While a call is left, some thread can step. -/
  progress : (∃ t ∈ g.threads, t.updates ≠ []) → ∃ i, (g.step i).isSome = true
  /-- When all calls are over, every function is applied, and every failed attempt is counted and warned of. -/
  finished : (∀ t ∈ g.threads, t.updates = []) → (appliedIn es).Perm calls.flatten ∧
    g.contended = occurring SyncAction.isFailed es ∧ g.warnings = occurring SyncAction.isFailed es

section Law
variable {value : α} {calls : List (List (α → α))}

lemma Serial.alone (h : Serial value es g) {j : Nat} {u : SyncThread α} (ht : g.threads[i]? = some t)
    (hu : g.threads[j]? = some u) (hi : t.stage.isInside = true) (hj : u.stage.isInside = true) : i = j :=
  Option.some.inj ((h.exclusive i t ht hi).symm.trans (h.exclusive j u hu hj))

lemma InOrder.updates_ne_nil (h : InOrder calls es g) (ht : g.threads[i]? = some t) (hs : t.stage ≠ .idle) :
    t.updates ≠ [] := by
  have hlt : i < calls.length := h.length ▸ (List.getElem?_eq_some_iff.mp ht).1
  exact (h.follows i _ t (List.getElem?_eq_getElem hlt) ht).updates_ne_nil hs

lemma Once.sums (h : Once calls es g) (hv : g.value = (appliedIn es).foldl (fun x f => f x) value) {β : Type}
    [AddCommMonoid β] {measure : α → β} {amount : (α → α) → β}
    (hm : ∀ f ∈ calls.flatten, ∀ x, measure (f x) = measure x + amount f) :
    measure g.value + ((g.threads.flatMap SyncThread.unapplied).map amount).sum =
      measure value + (calls.flatten.map amount).sum := by
  have happlied : ∀ f ∈ appliedIn es, ∀ x, measure (f x) = measure x + amount f := fun f hf =>
    hm f (h.mem_iff.mp (List.mem_append_left _ hf))
  rw [hv, measure_foldl happlied, add_assoc, ← List.sum_append, ← List.map_append, (h.map amount).sum_eq]

/-- Some thread can step while there is one with an update left: the owner of the lock, or that one. -/
lemma exists_step (hserial : Serial value es g) (horder : InOrder calls es g)
    (h : ∃ t ∈ g.threads, t.updates ≠ []) : ∃ i, (g.step i).isSome = true := by
  obtain ⟨-, part, -, hpart⟩ := hserial.accesses
  have howner : ∀ {i stage fs}, g.threads[i]? = some ⟨stage, fs⟩ → stage.isInside = true → (g.step i).isSome = true :=
    fun {i stage fs} ht hinside => by
      obtain ⟨f, rest, rfl⟩ := List.exists_cons_of_ne_nil
        (horder.updates_ne_nil ht fun hidle => nomatch (congrArg Stage.isInside hidle).symm.trans hinside)
      exact step_isSome ht fun hwaiting => nomatch (congrArg Stage.isInside hwaiting).symm.trans hinside
  cases hpart with
  | holding _ ht => exact ⟨_, howner ht rfl⟩
  | updating _ ht => exact ⟨_, howner ht rfl⟩
  | updated _ ht => exact ⟨_, howner ht rfl⟩
  | free ho =>
    obtain ⟨⟨stage, fs⟩, ht, hfs⟩ := h
    obtain ⟨i, hi⟩ := List.mem_iff_getElem?.mp ht
    obtain ⟨f, rest, rfl⟩ := List.exists_cons_of_ne_nil hfs
    exact ⟨i, step_isSome hi fun _ => ho⟩

/-- When all calls are over, no thread has anything left to apply, to count or to warn of. -/
lemma finished_counts (horder : InOrder calls es g) (hdone : ∀ t ∈ g.threads, t.updates = []) :
    g.threads.flatMap SyncThread.unapplied = [] ∧ ∀ p : Stage α → Bool, p .idle = false → g.standing p = 0 := by
  have hidle : ∀ t ∈ g.threads, t.stage = .idle := fun t ht => by
    obtain ⟨i, hi⟩ := List.mem_iff_getElem?.mp ht
    by_contra hs
    exact horder.updates_ne_nil hi hs (hdone t ht)
  refine ⟨List.flatMap_eq_nil_iff.mpr fun t ht => ?_, fun p hp => List.countP_eq_zero.mpr fun t ht => ?_⟩
  · rw [SyncThread.unapplied, hidle t ht]
    exact hdone t ht
  · rw [hidle t ht, hp]
    exact Bool.false_ne_true

/-- The law holds for any threads and any schedule, in whatever mode the value is made. -/
theorem serialLaw (mode : SyncMode) (value : α) (calls : List (List (α → α))) (turns : List Turn) :
    SerialLaw value calls (run turns ((new mode value).share calls)).1
      (run turns ((new mode value).share calls)).2 := by
  have hserial := serial_run mode value calls turns
  have horder := inOrder_run calls (new mode value) turns
  have honce := once_run calls (new mode value) turns
  have htallied := tallied_run mode value calls turns
  refine {
    exclusive := fun _ _ _ _ ht hu hi hj => hserial.alone ht hu hi hj
    serial := hserial
    order := horder
    once := honce
    sums := fun _ _ hm => honce.sums hserial.value hm
    tallied := htallied
    safe := contended_run _ turns (standing_share _ rfl calls _)
    quiet := fun later hg hr => contended_run _ later hg hr
    progress := exists_step hserial horder
    finished := fun hdone => ?_ }
  obtain ⟨hunapplied, hstanding⟩ := finished_counts horder hdone
  refine ⟨?_, ?_, ?_⟩
  · have hperm := honce
    rwa [Once, hunapplied, List.append_nil] at hperm
  · rw [← htallied.counted, hstanding _ rfl, Nat.add_zero]
  · rw [← htallied.warned, hstanding _ rfl, Nat.add_zero]

end Law

end Guarded
end DbClient
