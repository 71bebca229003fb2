import DbClient.Proofs.Bindings.Names
import Mathlib.Data.List.Nodup

/-! The objects of a holder along any calls that are made to it, whether names are repeated or not. An account of the
calls tells for each object that was added whether it has been handed back; the holder has those that have not been,
in the order in which they were added. -/
namespace DbClient

/-- What is asked of a holder. -/
inductive HolderCall where
  | add (o : BindObject) (allowRebinding : Bool)
  | clear
  deriving Repr, DecidableEq

/-- What a call gives back, and the holder after it. -/
def HolderCall.perform : HolderCall → BindsHolder → Option BindObject × BindsHolder
  | add o allowRebinding, h => h.add o allowRebinding
  | clear, _ => (none, .empty)

/-- A holder after calls that are made to it. -/
def BindsHolder.play (cs : List HolderCall) (h : BindsHolder) : BindsHolder := cs.foldl (fun h c => (c.perform h).2) h

/-- The first element of a kind leaves those before it and those behind it in their order. -/
lemma eraseP_of_find? {α : Type} {p : α → Bool} {as : List α} {a : α} (h : as.find? p = some a) : p a = true ∧
    ∃ before after, as = before ++ a :: after ∧ (∀ b ∈ before, ¬p b = true) ∧ as.eraseP p = before ++ after := by
  obtain ⟨ha, before, after, rfl, hbefore⟩ := List.find?_eq_some_iff_append.mp h
  have hfirst : ∀ b ∈ before, ¬p b = true := fun b hb => by simpa using hbefore b hb
  refine ⟨ha, before, after, rfl, hfirst, ?_⟩
  rw [List.eraseP_append_right _ hfirst, List.eraseP_cons_of_pos ha]

/-! ### The account -/

/-- The account of a holder: the objects that were added since it was cleared last, and the places among these of the
ones that were handed back. -/
structure BindLedger where
  added : List BindObject
  returned : List Nat
  deriving Repr, DecidableEq

namespace BindLedger

def empty : BindLedger := ⟨[], []⟩

/-- The objects that have not been handed back, each with its place. -/
def kept (l : BindLedger) : List (BindObject × Nat) := l.added.zipIdx.filter fun e => e.2 ∉ l.returned

/-- The object that goes when another one is added: the first of its name, if the name may be bound again. -/
def leaving (l : BindLedger) (o : BindObject) (allowRebinding : Bool) : Option (BindObject × Nat) :=
  if allowRebinding then l.kept.find? fun e => e.1.name = o.name else none

/-- Enters a call in the account. -/
def enter (l : BindLedger) : HolderCall → BindLedger
  | .add o allowRebinding => ⟨l.added ++ [o], l.returned ++ ((l.leaving o allowRebinding).map Prod.snd).toList⟩
  | .clear => empty

/-- The account of calls. -/
def ofCalls (cs : List HolderCall) : BindLedger := cs.foldl enter empty

/-- Each object is handed back once at most, after it was added. -/
structure Sound (l : BindLedger) : Prop where
  once : l.returned.Nodup
  added : ∀ place ∈ l.returned, place < l.added.length

variable {l : BindLedger} {o : BindObject} {allow : Bool}

lemma nodup_kept (l : BindLedger) : (l.kept.map Prod.snd).Nodup := by
  have hall : (l.added.zipIdx.map Prod.snd).Nodup := by
    rw [List.zipIdx_map_snd]
    exact List.nodup_range'
  exact (List.filter_sublist.map _).nodup hall

/-- Only what was added and has not been handed back can leave. -/
lemma place_of_leaving {place : Nat} (h : place ∈ ((l.leaving o allow).map Prod.snd).toList) :
    place ∉ l.returned ∧ place < l.added.length := by
  obtain ⟨e, he, rfl⟩ := Option.map_eq_some_iff.mp (Option.mem_toList.mp h)
  have hmem : e ∈ l.kept := by
    unfold leaving at he
    split at he
    · exact List.mem_of_find?_eq_some he
    · cases he
  obtain ⟨hplace, hnot⟩ := List.mem_filter.mp hmem
  have hrange := List.mem_map_of_mem (f := Prod.snd) hplace
  rw [List.zipIdx_map_snd, List.mem_range'_1, Nat.zero_add] at hrange
  exact ⟨by simpa using hnot, hrange.2⟩

lemma Sound.enter (h : l.Sound) (c : HolderCall) : (l.enter c).Sound := by
  cases c with
  | clear => exact ⟨List.nodup_nil, nofun⟩
  | add o allow =>
    have hlength : (l.enter (.add o allow)).added.length = l.added.length + 1 := List.length_append
    refine ⟨h.once.append ?_ fun place hold hnew => (place_of_leaving hnew).1 hold, fun place hplace => ?_⟩
    · cases (l.leaving o allow).map Prod.snd <;> simp
    · rw [hlength]
      rcases List.mem_append.mp hplace with hold | hnew
      · exact Nat.lt_succ_of_lt (h.added place hold)
      · exact Nat.lt_succ_of_lt (place_of_leaving hnew).2

/-- The places tell the first object of a kind from all the others. -/
lemma filter_place {es : List (BindObject × Nat)} (hn : (es.map Prod.snd).Nodup) (p : BindObject × Nat → Bool) :
    (es.filter fun e => e.2 ∉ ((es.find? p).map Prod.snd).toList) = es.eraseP p := by
  cases hf : es.find? p with
  | none =>
    have hnone : ∀ e ∈ es, ¬p e = true := List.find?_eq_none.mp hf
    rw [List.eraseP_of_forall_not hnone]
    exact List.filter_eq_self.mpr fun e _ => by simp
  | some e =>
    obtain ⟨-, before, after, rfl, -, herased⟩ := eraseP_of_find? hf
    rw [List.map_append, List.map_cons] at hn
    obtain ⟨-, hlater, hapart⟩ := List.nodup_append.mp hn
    have hb : ∀ q ∈ before, q.2 ≠ e.2 := fun q hq =>
      hapart _ (List.mem_map_of_mem hq) _ List.mem_cons_self
    have ha : ∀ q ∈ after, q.2 ≠ e.2 := fun q hq he =>
      (List.nodup_cons.mp hlater).1 (he ▸ List.mem_map_of_mem hq)
    rw [herased, List.filter_append, List.filter_cons_of_neg (by simp),
      List.filter_eq_self.mpr fun q hq => by simpa using hb q hq,
      List.filter_eq_self.mpr fun q hq => by simpa using ha q hq]

/-- What is kept when an object is added: all but the one that leaves, and behind it the new one. -/
lemma kept_add (h : l.Sound) (o : BindObject) (allow : Bool) : (l.enter (.add o allow)).kept =
    (l.kept.filter fun e => e.2 ∉ ((l.leaving o allow).map Prod.snd).toList) ++ [(o, l.added.length)] := by
  have hreturned : (l.enter (.add o allow)).returned =
      l.returned ++ ((l.leaving o allow).map Prod.snd).toList := rfl
  have hnew : l.added.length ∉ l.returned ++ ((l.leaving o allow).map Prod.snd).toList := fun hin => by
    rcases List.mem_append.mp hin with hold | hleaving
    · exact Nat.lt_irrefl _ (h.added _ hold)
    · exact Nat.lt_irrefl _ (place_of_leaving hleaving).2
  rw [kept, hreturned]
  change (l.added ++ [o]).zipIdx.filter _ = _
  rw [List.zipIdx_append, List.filter_append, kept, List.filter_filter]
  congr 1
  · exact List.filter_congr fun e _ => Bool.eq_iff_iff.mpr (by simp [and_comm])
  · simpa [List.zipIdx_cons] using hnew

lemma kept_disallowed (h : l.Sound) (o : BindObject) :
    (l.enter (.add o false)).kept = l.kept ++ [(o, l.added.length)] := by
  rw [kept_add h]
  exact congrArg (· ++ _) (List.filter_eq_self.mpr fun e _ => by simp [leaving])

lemma kept_allowed (h : l.Sound) (o : BindObject) : (l.enter (.add o true)).kept =
    (l.kept.eraseP fun e => e.1.name = o.name) ++ [(o, l.added.length)] := by
  rw [kept_add h, ← filter_place l.nodup_kept]
  rfl

end BindLedger

/-! ### The holder -/

namespace BindsHolder
variable {h : BindsHolder} {l : BindLedger}

lemma takeNamed_eq (name : String) (os : List BindObject) :
    takeNamed name os = (os.find? fun o => o.name = name, os.eraseP fun o => o.name = name) := by
  induction os with
  | nil => rfl
  | cons o os ih =>
    by_cases ho : o.name = name
    · rw [takeNamed, if_pos ho, List.find?_cons_of_pos (by simpa using ho), List.eraseP_cons_of_pos (by simpa using ho)]
    · rw [takeNamed, if_neg ho, ih, List.find?_cons_of_neg (by simpa using ho),
        List.eraseP_cons_of_neg (by simpa using ho)]

/-- A name that may be bound again: its first object goes, and the new one comes last. -/
lemma add_allowed (h : BindsHolder) (o : BindObject) :
    h.add o true = (h.get? o.name, ⟨(h.objects.eraseP fun p => p.name = o.name) ++ [o]⟩) := by
  rw [add, if_pos rfl, takeNamed_eq]
  rfl

/-- A holder has the objects that its account keeps. -/
structure Accounts (h : BindsHolder) (l : BindLedger) : Prop where
  sound : l.Sound
  objects : h.objects = l.kept.map Prod.fst

/-- Each call is answered as the account says. -/
lemma Accounts.leaving (ha : h.Accounts l) (o : BindObject) (allow : Bool) :
    (h.add o allow).1 = (l.leaving o allow).map Prod.fst := by
  cases allow with
  | false => rfl
  | true =>
    rw [add_allowed, get?, ha.objects, List.find?_map]
    rfl

/-- Each call leaves a holder that has what its account keeps. -/
theorem Accounts.perform (ha : h.Accounts l) (c : HolderCall) : (c.perform h).2.Accounts (l.enter c) := by
  refine ⟨ha.sound.enter c, ?_⟩
  cases c with
  | clear => rfl
  | add o allow =>
    cases allow with
    | false =>
      rw [BindLedger.kept_disallowed ha.sound, List.map_append, ← ha.objects]
      rfl
    | true =>
      change (h.add o true).2.objects = _
      rw [BindLedger.kept_allowed ha.sound, List.map_append, add_allowed, ha.objects, List.eraseP_map]
      rfl

/-- So do any calls. -/
theorem Accounts.play (ha : h.Accounts l) (cs : List HolderCall) :
    (h.play cs).Accounts (cs.foldl BindLedger.enter l) := by
  induction cs generalizing h l with
  | nil => exact ha
  | cons c cs ih => exact ih (ha.perform c)

/-- Names that are distinct stay so when they may be bound again, and the new object has its name. -/
lemma distinct_add (hn : h.names.Nodup) (o : BindObject) :
    (h.add o true).2.names.Nodup ∧ (h.add o true).2.get? o.name = some o := by
  have hnames : (h.add o true).2.names.Nodup := by
    rw [names_add hn fun _ => rfl]
    exact List.nodup_dedup _
  exact ⟨hnames, get?_of_mem hnames self_mem_add⟩

/-- What a holder keeps, and what it hands back, after any calls. -/
structure ConservationLaw (cs : List HolderCall) : Prop where
  /-- A holder has what was added since it was cleared last and has not been handed back, in the order of adding. -/
  contents : (play cs empty).objects = (BindLedger.ofCalls cs).kept.map Prod.fst
  /-- No object is handed back twice, and none that was not added. -/
  returned : (BindLedger.ofCalls cs).Sound
  /-- The next object takes the place of the one that leaves by the account, which is handed back. -/
  answered : ∀ o allow, ((play cs empty).add o allow).1 = ((BindLedger.ofCalls cs).leaving o allow).map Prod.fst
  /-- When a name may not be bound again, nothing is handed back. -/
  appended : ∀ o, (play cs empty).add o false = (none, ⟨(play cs empty).objects ++ [o]⟩)
  /-- What is handed back is the first object of the name; the others keep their order. -/
  replaced : ∀ o old g, (play cs empty).add o true = (some old, g) → old.name = o.name ∧ ∃ before after,
    (play cs empty).objects = before ++ old :: after ∧ (∀ p ∈ before, p.name ≠ o.name) ∧
      g.objects = before ++ after ++ [o]
  /-- If nothing is handed back, there was no object of the name. -/
  free : ∀ o g, (play cs empty).add o true = (none, g) → (∀ p ∈ (play cs empty).objects, p.name ≠ o.name) ∧
    g.objects = (play cs empty).objects ++ [o]
  /-- When names may be bound again, they stay distinct if they are, and the new object has its name. -/
  distinct : ∀ o, (play cs empty).names.Nodup →
    ((play cs empty).add o true).2.names.Nodup ∧ ((play cs empty).add o true).2.get? o.name = some o
  /-- All questions to the holder are answered from what is kept. -/
  size : (play cs empty).size = (BindLedger.ofCalls cs).kept.length
  isEmpty : (play cs empty).isEmpty = true ↔ (BindLedger.ofCalls cs).kept = []
  names : (play cs empty).names = (BindLedger.ofCalls cs).kept.map fun e => e.1.name
  get : ∀ name, (play cs empty).get? name = ((BindLedger.ofCalls cs).kept.find? fun e => e.1.name = name).map Prod.fst

/-- The law of conservation holds for any calls. -/
theorem conservationLaw (cs : List HolderCall) : ConservationLaw cs := by
  have hstart : empty.Accounts .empty := ⟨⟨List.nodup_nil, nofun⟩, rfl⟩
  have hnow : (play cs empty).Accounts (.ofCalls cs) := hstart.play cs
  refine {
    contents := hnow.objects
    returned := hnow.sound
    answered := hnow.leaving
    appended := fun _ => rfl
    replaced := fun o old g hadd => ?_
    free := fun o g hadd => ?_
    distinct := fun o hn => distinct_add hn o
    size := ?_
    isEmpty := ?_
    names := ?_
    get := fun name => ?_ }
  · rw [add_allowed] at hadd
    obtain ⟨hfound, rfl⟩ := Prod.mk.inj hadd
    obtain ⟨hname, before, after, hobjects, hbefore, herased⟩ := eraseP_of_find? hfound
    exact ⟨by simpa using hname, before, after, hobjects, fun p hp => by simpa using hbefore p hp,
      congrArg (· ++ [o]) herased⟩
  · rw [add_allowed] at hadd
    obtain ⟨hfound, rfl⟩ := Prod.mk.inj hadd
    have hnone := List.find?_eq_none.mp hfound
    exact ⟨fun p hp => by simpa using hnone p hp, by rw [List.eraseP_of_forall_not hnone]⟩
  · rw [BindsHolder.size, hnow.objects, List.length_map]
  · rw [BindsHolder.isEmpty, hnow.objects, List.isEmpty_iff, List.map_eq_nil_iff]
  · rw [BindsHolder.names, hnow.objects, List.map_map]
    rfl
  · rw [get?, hnow.objects, List.find?_map]
    rfl

end BindsHolder
end DbClient
