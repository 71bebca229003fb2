import DbClient.Proofs.Moves.Basic

/-! The two tables of the variables of a statement: the native library replaces an entry in place, the holder
takes the old object out and appends the new one. Up to order they list the same variables. -/
namespace DbClient

/-! ### Entries of the native table -/

lemma frames_of_put (binds : Assoc String Bound) (name : String) (b : Bound) :
    frames (binds.put name b) = (frames binds).put name b.frame := by
  have hw : ∀ l : List (String × Bound), (Assoc.write name b l).map (fun p => (p.1, p.2.frame)) =
      Assoc.write name b.frame (l.map fun p => (p.1, p.2.frame)) := by
    intro l
    induction l with
    | nil => rfl
    | cons p rest ih =>
      obtain ⟨j, c⟩ := p
      by_cases h : j = name <;> simp [Assoc.write, h, ih]
  exact congrArg Assoc.mk (hw binds.pairs)

@[simp] lemma keys_frames (binds : Assoc String Bound) : (frames binds).keys = binds.keys := by
  simp [frames, Assoc.keys, Function.comp_def]

/-- What the native library knows of the text and the variables of a statement, actual lengths apart. -/
def NativeStatement.bindings (st : NativeStatement) : Option (String × PrepareMode) × Assoc String Bound :=
  (st.prepared, frames st.binds)

lemma NativeStatement.bindings_of_core {x y : Option NativeStatement} (h : x.map core = y.map core) :
    x.map bindings = y.map bindings := by
  have hb := congrArg (Option.map fun st : NativeStatement => (st.prepared, st.binds)) h
  rw [Option.map_map, Option.map_map] at hb
  exact hb

/-- The entry of the native table that belongs to an object. -/
def BindObject.entry (o : BindObject) : String × Bound := (o.name, (Bound.ofDesc o.desc).frame)

/-- An entry that was made for an object describes it. -/
lemma describes {b : Bound} {o : BindObject} (h : b.frame = (Bound.ofDesc o.desc).frame) :
    b.ty = o.ty ∧ b.elemSize = o.elemSize ∧ b.elemCount = o.elemCount ∧ b.tableLength = o.tableLength ∧
      b.direction = o.direction ∧ b.buffer = o.buffer := by
  simp only [Bound.frame, Bound.ofDesc, Bound.mk.injEq] at h
  obtain ⟨h1, h2, h3, h4, h5, h6, -⟩ := h
  exact ⟨h1, h3, h4, h5, h6, h2⟩

/-- It has an actual length for each element. -/
lemma length_sizes {b : Bound} {o : BindObject} (h : b.frame = (Bound.ofDesc o.desc).frame) :
    b.sizes.length = o.elemCount := by
  have hs := congrArg (fun b => b.sizes.length) h
  simpa [Bound.frame, Bound.ofDesc, BindObject.desc, BindPlan.desc] using hs

/-! ### The holder -/

namespace BindsHolder
variable {h : BindsHolder} {o : BindObject} {m m' : Memory}

lemma takeNamed_of_nodup {name : String} {os : List BindObject} (hos : (os.map fun o => o.name).Nodup) :
    takeNamed name os = (os.find? fun o => o.name = name, os.filter fun o => o.name ≠ name) := by
  induction os with
  | nil => rfl
  | cons p rest ih =>
    have hd := List.nodup_cons.mp hos
    by_cases hp : p.name = name
    · -- no other object has that name
      have hrest : rest.filter (fun o => o.name ≠ name) = rest := by
        apply List.filter_eq_self.mpr
        intro q hq
        have hne : q.name ≠ name := fun e => hd.1 (List.mem_map.mpr ⟨q, hq, e.trans hp.symm⟩)
        simpa using hne
      rw [takeNamed, if_pos hp, List.find?_cons_of_pos (by simpa using hp),
        List.filter_cons_of_neg (by simpa using hp), hrest]
    · rw [takeNamed, if_neg hp, ih hd.2, List.find?_cons_of_neg (by simpa using hp),
        List.filter_cons_of_pos (by simpa using hp)]

/-- An object takes the place of the one that has its name, if one has and that is allowed. -/
theorem add_eq {allow : Bool} (hn : h.names.Nodup) (ha : (∃ p ∈ h.objects, p.name = o.name) → allow = true) :
    h.add o allow = (h.get? o.name, ⟨(h.objects.filter fun p => p.name ≠ o.name) ++ [o]⟩) := by
  unfold add
  cases allow with
  | true => rw [if_pos rfl, takeNamed_of_nodup hn, get?]
  | false =>
    have hfree : ∀ p ∈ h.objects, p.name ≠ o.name := fun p hp e => by
      cases ha ⟨p, hp, e⟩
    have hall : h.objects.filter (fun p => p.name ≠ o.name) = h.objects :=
      List.filter_eq_self.mpr fun p hp => by simpa using hfree p hp
    have hnone : h.get? o.name = none := List.find?_eq_none.mpr fun p hp => by simpa using hfree p hp
    rw [if_neg Bool.false_ne_true, hnone, hall]

/-- The object that gives way is one of those that were there. -/
lemma mem_replaced {allow : Bool} (hn : h.names.Nodup) (ha : (∃ p ∈ h.objects, p.name = o.name) → allow = true)
    {b : Nat} (hb : b ∈ ((h.add o allow).1.map BindObject.buffer).toList) :
    ∃ p ∈ h.objects, p.name = o.name ∧ p.buffer = b := by
  rw [add_eq hn ha] at hb
  obtain ⟨p, hp, rfl⟩ := Option.map_eq_some_iff.mp (Option.mem_toList.mp hb)
  exact ⟨p, List.mem_of_find?_eq_some hp, by simpa using List.find?_some hp, rfl⟩

lemma mem_buffers_add {allow : Bool} (hn : h.names.Nodup)
    (ha : (∃ p ∈ h.objects, p.name = o.name) → allow = true) {b : Nat} (hb : b ∈ (h.add o allow).2.buffers) :
    b ∈ h.buffers ∨ b = o.buffer := by
  rw [add_eq hn ha] at hb
  obtain ⟨p, hp, rfl⟩ := List.mem_map.mp hb
  rcases List.mem_append.mp hp with hp | hp
  · exact .inl (List.mem_map_of_mem (List.mem_of_mem_filter hp))
  · exact .inr (by rw [List.mem_singleton.mp hp])

/-- Objects of different names, each with a buffer of its own that is there in full length. -/
structure Stocked (h : BindsHolder) (m : Memory) : Prop where
  names : h.names.Nodup
  buffers : h.buffers.Nodup
  there : ∀ o ∈ h.objects, (m.get? o.buffer).map List.length = some o.desc.length

lemma stocked_empty (m : Memory) : empty.Stocked m := ⟨List.nodup_nil, List.nodup_nil, by simp [empty]⟩

lemma Stocked.mono (hs : h.Stocked m)
    (hm : ∀ b ∈ h.buffers, (m'.get? b).map List.length = (m.get? b).map List.length) : h.Stocked m' :=
  ⟨hs.names, hs.buffers, fun o ho => (hm _ (List.mem_map_of_mem ho)).trans (hs.there o ho)⟩

/-- The buffers of a stocked holder are there. -/
lemma Stocked.mem (hs : h.Stocked m) {b : Nat} (hb : b ∈ h.buffers) : ∃ bytes, m.get? b = some bytes := by
  obtain ⟨o, ho, rfl⟩ := List.mem_map.mp hb
  obtain ⟨bytes, hbytes, -⟩ := Option.map_eq_some_iff.mp (hs.there o ho)
  exact ⟨bytes, hbytes⟩

lemma Stocked.ne_next (hs : h.Stocked m) (hm : m.Lawful) {b : Nat} (hb : b ∈ h.buffers) : b ≠ m.next := by
  obtain ⟨bytes, hbytes⟩ := hs.mem hb
  exact Nat.ne_of_lt (hm.handed b bytes hbytes)

/-- Objects with one buffer are one object. -/
lemma Stocked.unique (hs : h.Stocked m) {p : BindObject} (ho : o ∈ h.objects) (hp : p ∈ h.objects)
    (he : o.buffer = p.buffer) : o = p := List.inj_on_of_nodup_map hs.buffers ho hp he

/-- A new object brings its buffer, and the one that it replaces takes its own along. -/
theorem Stocked.add {plan : BindPlan} {allow : Bool} (hs : h.Stocked m) (hm : m.Lawful)
    (ho : o = { plan with buffer := m.next })
    (ha : (∃ p ∈ h.objects, p.name = plan.name) → allow = true) :
    (h.add o allow).2.Stocked (((h.add o allow).1.map BindObject.buffer).toList.foldl Table.erase
      (m.add (List.replicate (plan.elemSize * plan.elemCount) 0))) := by
  have hold : ∀ b ∈ ((h.add o allow).1.map BindObject.buffer).toList,
      ∃ p ∈ h.objects, p.name = plan.name ∧ p.buffer = b := by
    subst ho
    exact fun b hb => mem_replaced hs.names ha hb
  generalize ((h.add o allow).1.map BindObject.buffer).toList = gone at hold
  subst ho
  rw [add_eq hs.names ha]
  have hsub : (h.objects.filter fun p => p.name ≠ plan.name).Sublist h.objects := List.filter_sublist
  refine ⟨?_, ?_, fun p hp => ?_⟩
  · change (List.map _ (_ ++ [_])).Nodup
    rw [List.map_append]
    apply ((hsub.map _).nodup hs.names).append (List.nodup_singleton _)
    intro name hname hnew
    obtain ⟨p, hp, rfl⟩ := List.mem_map.mp hname
    have hne := (List.mem_filter.mp hp).2
    rw [List.mem_singleton] at hnew
    simp [hnew] at hne
  · change (List.map _ (_ ++ [_])).Nodup
    rw [List.map_append]
    apply ((hsub.map _).nodup hs.buffers).append (List.nodup_singleton _)
    intro b hb hnew
    obtain ⟨p, hp, rfl⟩ := List.mem_map.mp hb
    exact hs.ne_next hm (List.mem_map_of_mem (hsub.mem hp)) (List.mem_singleton.mp hnew)
  · rw [Table.get?_erase_all, if_neg, Table.get?_add]
    · rcases List.mem_append.mp hp with hp | hp
      · have hmem := hsub.mem hp
        rw [if_neg (hs.ne_next hm (List.mem_map_of_mem hmem)).symm]
        exact hs.there p hmem
      · obtain rfl := List.mem_singleton.mp hp
        simp [BindObject.desc, BindPlan.desc, BindDesc.length]
    · intro hb
      obtain ⟨q, hq, hname, he⟩ := hold _ hb
      rcases List.mem_append.mp hp with hp | hp
      · obtain rfl := hs.unique hq (hsub.mem hp) he
        exact absurd hname (by simpa using (List.mem_filter.mp hp).2)
      · obtain rfl := List.mem_singleton.mp hp
        exact hs.ne_next hm (List.mem_map_of_mem hq) he

end BindsHolder

/-! ### The two tables -/

/-- The data of a statement agree with the native library: it has the same text, and up to order one entry for
each object. -/
structure StatementData.Agrees (d : StatementData) (st : NativeStatement) : Prop where
  text : ∃ sql mode, st.prepared = some (sql, mode) ∧ d.sql = some sql
  binds : (frames st.binds).pairs.Perm (d.binds.objects.map BindObject.entry)

namespace StatementData.Agrees
variable {d d' : StatementData} {st st' : NativeStatement}

/-- Nothing else matters on either side. -/
lemma congr (h : d.Agrees st) (hs : st'.bindings = st.bindings) (hd : d'.sql = d.sql ∧ d'.binds = d.binds) :
    d'.Agrees st' := by
  obtain ⟨hp, hb⟩ := Prod.mk.inj hs
  refine ⟨?_, ?_⟩
  · rw [hp, hd.1]
    exact h.text
  · rw [hb, hd.2]
    exact h.binds

lemma keys (h : d.Agrees st) : st.binds.keys.Perm d.binds.names := by
  have hk : ((frames st.binds).pairs.map Prod.fst).Perm ((d.binds.objects.map BindObject.entry).map Prod.fst) :=
    h.binds.map Prod.fst
  rw [List.map_map] at hk
  rw [← keys_frames]
  exact hk

/-- A statement that has just been prepared has no variables. -/
lemma fresh {sql : String} {mode : PrepareMode} (status : Status) (d : StatementData) :
    Agrees { d.reset sql with status := status } ⟨some (sql, mode), ∅, [], [], none⟩ :=
  ⟨⟨sql, mode, rfl, rfl⟩, List.Perm.nil⟩

/-- A variable is bound on both sides. -/
theorem bind (h : d.Agrees st) (hn : d.binds.names.Nodup) {o : BindObject}
    (ha : (∃ p ∈ d.binds.objects, p.name = o.name) → d.allowRebinding = true) :
    Agrees { d with binds := (d.binds.add o d.allowRebinding).2 }
      { st with binds := st.binds.put o.name (.ofDesc o.desc) } := by
  refine ⟨h.text, ?_⟩
  have hkeys : (frames st.binds).keys.Nodup := by
    rw [keys_frames]
    exact h.keys.nodup_iff.mpr hn
  change (frames (st.binds.put o.name (.ofDesc o.desc))).pairs.Perm _
  rw [frames_of_put, BindsHolder.add_eq hn ha]
  apply (Assoc.put_perm hkeys _ _).trans
  change (List.filter _ _ ++ _).Perm (List.map _ (_ ++ [o]))
  rw [List.map_append]
  refine List.Perm.append ?_ (List.Perm.refl _)
  have hfilter := h.binds.filter fun p => p.1 ≠ o.name
  rwa [List.filter_map] at hfilter

/-- An object has one entry, which was made for it. -/
lemma entry (h : d.Agrees st) (hn : d.binds.names.Nodup) {o : BindObject} (ho : o ∈ d.binds.objects) :
    ∃ b, st.binds.get? o.name = some b ∧ b.frame = (Bound.ofDesc o.desc).frame := by
  have hkeys : (frames st.binds).keys.Nodup := by
    rw [keys_frames]
    exact h.keys.nodup_iff.mpr hn
  have hmem : o.entry ∈ (frames st.binds).pairs := h.binds.mem_iff.mpr (List.mem_map_of_mem ho)
  have hget := (Assoc.mem_pairs hkeys).mp hmem
  rw [get?_frames] at hget
  exact Option.map_eq_some_iff.mp hget

/-- An entry belongs to an object. -/
lemma object (h : d.Agrees st) {name : String} {b : Bound} (hb : st.binds.get? name = some b) :
    ∃ o ∈ d.binds.objects, o.name = name ∧ b.frame = (Bound.ofDesc o.desc).frame := by
  have hget : (frames st.binds).get? name = some b.frame := by rw [get?_frames, hb, Option.map_some]
  obtain ⟨o, ho, he⟩ := List.mem_map.mp (h.binds.mem_iff.mp (Assoc.mem_of_find hget))
  obtain ⟨h1, h2⟩ := Prod.mk.inj he
  exact ⟨o, ho, h1, h2.symm⟩

end StatementData.Agrees
end DbClient
