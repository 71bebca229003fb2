import DbClient.Proofs.Text.Utf8
import DbClient.Proofs.Transfer.Faults
import DbClient.Proofs.Transfer.Moments
import DbClient.Proofs.Transfer.Sizes

/-! Round trips: variables go into the buffers, nothing is done to the buffers, and the variables come out again. What
comes back is what went in, as far as it fits and to the microsecond, and it is stable. -/
namespace DbClient
open Act World

/-! ### Values -/

namespace Host
open Text
variable {ty : ValueType} {x y z : Host ty} {size size' : Nat} {bs : List UInt8}

/-- A moment does not lie within a leap second. -/
def Leapless : (ty : ValueType) → Host ty → Prop
  | .dateTime, d => d.nanos < 1000000000
  | _, _ => True

instance : (ty : ValueType) → (x : Host ty) → Decidable (Leapless ty x)
  | .dateTime, d => inferInstanceAs (Decidable (DateTime.nanos d < 1000000000))
  | .bool, _ | .int _, _ | .float _, _ | .string, _ | .raw, _ | .handle, _ => isTrue trivial

/-- What a round trip makes of a value for which `size` bytes are declared. A text becomes its longest front of whole
characters that fits, a byte string its longest front, a moment is truncated to the microsecond, and any other value
stays as it is, to the bit. -/
def Settles (size : Nat) : (ty : ValueType) → Host ty → Host ty → Prop
  | .string, s, t => t.toList <+: s.toList ∧ (Utf8.encode t.toList).length ≤ size ∧
      ∀ q, q <+: s.toList → (Utf8.encode q).length ≤ size → q <+: t.toList
  | .raw, all, front => front <+: all ∧ front.length ≤ size ∧ ∀ q, q <+: all → q.length ≤ size → q <+: front
  | .dateTime, d, e => e.seconds = d.seconds ∧ e.nanos = d.nanos / 1000 * 1000
  | _, x, y => y = x

/-- What fits of a value is read back as what the value settles to. -/
theorem settles_of_fits (hs : ty.stride size = ty.stride size') (h : Fits size' ty x bs) (hl : Leapless ty x) :
    ∃ y, ofBytes? ty bs = some y ∧ Settles size ty x y ∧ (ty.isVariable = true → bs.length ≤ size) := by
  have hfixed : ∀ t (n : Fixed t), Fixed.ofBytes t n.bytes = n := fun t n => by
    simpa using Fixed.ofBytes_bytes n []
  cases ty with
  | string =>
    obtain rfl := Nat.succ.inj hs
    obtain ⟨p, hp, rfl, hn, hmax⟩ := h
    refine ⟨String.ofList p, Utf8.decode?_encode p, ?_, fun _ => hn⟩
    simp only [Settles, String.toList_ofList]
    exact ⟨hp, hn, hmax⟩
  | raw =>
    obtain rfl := Nat.succ.inj hs
    exact ⟨bs, rfl, h, fun _ => h.2.1⟩
  | dateTime =>
    obtain rfl : bs = Fixed.bytes (DateTime.micros x) := h
    have hread := congrArg (fun n : Fixed .int64 => DateTime.ofMicros? n.val) (hfixed .int64 (DateTime.micros x))
    exact ⟨_, hread.trans (DateTime.ofMicros?_micros x hl), ⟨rfl, rfl⟩, fun h => absurd h Bool.false_ne_true⟩
  | bool =>
    obtain rfl : bs = _ := h
    refine ⟨x, ?_, rfl, fun h => absurd h Bool.false_ne_true⟩
    rw [ofBytes?, bytes, hfixed]
    cases x <;> rfl
  | float p =>
    obtain rfl : bs = _ := h
    refine ⟨x, ?_, rfl, fun h => absurd h Bool.false_ne_true⟩
    have hword := Binary.ofBytes_bytes x []
    rw [List.append_nil] at hword
    rw [ofBytes?, bytes, hword]
  | _ =>
    obtain rfl : bs = _ := h
    exact ⟨x, congrArg some (hfixed _ x), rfl, fun h => absurd h Bool.false_ne_true⟩

/-- What has settled stays. -/
theorem Settles.again (h : Settles size ty x y) (h' : Settles size ty y z) : z = y := by
  cases ty with
  | string =>
    obtain ⟨-, hn, -⟩ := h
    obtain ⟨hp, -, hmax⟩ := h'
    have hall : y.toList <+: z.toList := hmax _ List.prefix_rfl hn
    exact String.toList_injective (hp.eq_of_length_le hall.length_le)
  | raw =>
    obtain ⟨-, hn, -⟩ := h
    obtain ⟨hp, -, hmax⟩ := h'
    exact hp.eq_of_length_le (hmax _ List.prefix_rfl hn).length_le
  | dateTime =>
    obtain ⟨-, hn⟩ := h
    obtain ⟨hs, hn'⟩ := h'
    obtain ⟨seconds, nanos, _, _⟩ := y
    obtain ⟨seconds', nanos', _, _⟩ := z
    obtain rfl : seconds' = seconds := hs
    obtain rfl : nanos' = nanos := by
      dsimp only at hn hn'
      omega
    rfl
  | _ => exact h'

lemma Settles.leapless (h : Settles size ty x y) (hl : Leapless ty x) : Leapless ty y := by
  cases ty with
  | dateTime =>
    obtain ⟨-, hn⟩ := h
    change y.nanos < 1000000000
    have hx : x.nanos < 1000000000 := hl
    omega
  | _ => trivial

end Host

/-! ### Variables -/

/-- No moment that a variable holds lies within a leap second. -/
def HostVar.Leapless : HostVar → Prop
  | single ty x => Host.Leapless ty x
  | vector ty xs => ∀ x ∈ xs, Host.Leapless ty x

instance : (v : HostVar) → Decidable v.Leapless
  | .single ty x => inferInstanceAs (Decidable (Host.Leapless ty x))
  | .vector ty xs => inferInstanceAs (Decidable (∀ x ∈ xs, Host.Leapless ty x))

namespace BindPlan
variable {o : BindPlan} {arraySize : Nat} {v v' v'' : HostVar}

/-- What a round trip makes of the variable of an object. -/
inductive Settles (o : BindPlan) (arraySize : Nat) : HostVar → HostVar → Prop where
  /-- A single value settles. -/
  | single (x y : Host o.ty) : Host.Settles o.size o.ty x y → Settles o arraySize (.single o.ty x) (.single o.ty y)
  /-- A vector keeps its length. The elements that take part settle, and all others stay as they are. -/
  | vector (xs ys : List (Host o.ty)) : ys.length = xs.length →
      (∀ i x, xs[i]? = some x → ∃ y, ys[i]? = some y ∧
        if i < o.count arraySize xs.length then Host.Settles o.size o.ty x y else y = x) →
      Settles o arraySize (.vector o.ty xs) (.vector o.ty ys)

/-- After a second round trip a variable is what it was after the first. -/
theorem Settles.again (h : o.Settles arraySize v v') (h' : o.Settles arraySize v' v'') : v'' = v' := by
  cases h with
  | single x y hxy =>
    cases h' with
    | single _ z hyz => rw [hxy.again hyz]
  | vector xs ys hlen hall =>
    cases h' with
    | vector _ zs hlen' hall' =>
      refine congrArg _ (List.ext_getElem? fun i => ?_)
      rcases hx : xs[i]? with _ | x
      · rw [List.getElem?_eq_none_iff] at hx
        rw [List.getElem?_eq_none (by omega), List.getElem?_eq_none (by omega)]
      · obtain ⟨y, hy, hsettles⟩ := hall i x hx
        obtain ⟨z, hz, hsettles'⟩ := hall' i y hy
        rw [hlen] at hsettles'
        rw [hy, hz]
        split at hsettles
        · rename_i hi
          rw [if_pos hi] at hsettles'
          rw [hsettles.again hsettles']
        · rename_i hi
          rw [if_neg hi] at hsettles'
          rw [hsettles']

lemma Settles.leapless (h : o.Settles arraySize v v') (hl : v.Leapless) : v'.Leapless := by
  cases h with
  | single x y hxy => exact hxy.leapless hl
  | vector xs ys hlen hall =>
    intro y hmem
    obtain ⟨i, hy⟩ := List.mem_iff_getElem?.mp hmem
    have hi : i < xs.length := hlen ▸ (List.getElem?_eq_some_iff.mp hy).1
    obtain ⟨y', hy', hsettles⟩ := hall i xs[i] (List.getElem?_eq_getElem hi)
    obtain rfl := Option.some.inj (hy.symm.trans hy')
    have hx := hl xs[i] (List.getElem_mem hi)
    split at hsettles
    · exact hsettles.leapless hx
    · exact hsettles ▸ hx

end BindPlan

namespace BindObject
variable {w v : World} {stmt : Address} {o : BindObject} {os : List BindObject} {vars : Table HostVar}
  {arraySize i : Nat}

/-! ### Elements -/

/-- Only one value comes out of a cell. -/
lemma Brings.unique {x y : Host o.ty} (h : o.Brings stmt w i x) (h' : o.Brings stmt w i y) : y = x := by
  unfold Brings at h h'
  split at h
  · rename_i hv
    rw [if_pos hv] at h'
    obtain ⟨b, hb, hx⟩ := h
    obtain ⟨b', hb', hy⟩ := h'
    obtain rfl := Option.some.inj (hb.symm.trans hb')
    exact Option.some.inj (hy.symm.trans hx)
  · rename_i hv
    rw [if_neg hv] at h'
    exact Option.some.inj (h'.symm.trans h)

/-- Out of a cell comes what the native library finds in it, when that leaves the last byte of the cell. -/
lemma brings_of_seen {bs : List UInt8} {y : Host o.ty} (hs : o.Stands stmt w) (hi : i < o.elemCount)
    (hseen : w.seen? stmt o.name (i + 1) = some bs) (hlen : o.ty.isVariable = true → bs.length ≤ o.elemSize - 1)
    (hy : Host.ofBytes? o.ty bs = some y) : o.Brings stmt w i y := by
  obtain ⟨⟨bytes, hm, -⟩, ⟨b, hb, hf⟩⟩ := hs
  have hcell : o.cell i w = slice bytes (i * o.elemSize) o.elemSize := by
    rw [cell, bufferBytes, hm, Option.getD_some]
  rw [seen?_eq hb hf hm hi, ← hcell] at hseen
  have hbs := Option.some.inj hseen
  unfold Brings
  split
  · rename_i hv
    rw [if_pos hv] at hbs
    refine ⟨b, hb, ?_⟩
    rw [Bound.sizeAt, Nat.add_sub_cancel, Nat.min_comm, ← List.take_take, hbs, List.take_of_length_le (hlen hv)]
    exact hy
  · rename_i hv
    rw [if_neg hv] at hbs
    rw [hbs]
    exact hy

/-- The bytes that are asked for are those of what comes out. -/
lemma ofBytes?_of_askLength {n : Nat} {y : Host o.ty} (h : (o.askLength stmt o.ty i).run w = (.ok n, v))
    (hy : o.Brings stmt w i y) : Host.ofBytes? o.ty ((o.cell i v).take n) = some y := by
  obtain ⟨l, rfl, hn⟩ := ok_of_askLength h
  have hcell : o.cell i { w with library := l } = o.cell i w := cell_of_memory rfl i
  unfold Brings at hy
  rw [hcell]
  split at hy
  · rename_i hv
    rw [if_pos hv] at hn
    obtain ⟨size, hl, rfl⟩ := hn
    obtain ⟨b, hb, -, rfl⟩ := Library.dataSize_some hl
    obtain ⟨b', hb', hy⟩ := hy
    obtain rfl := Option.some.inj (hb.symm.trans hb')
    exact hy
  · rename_i hv
    rw [if_neg hv] at hn
    obtain ⟨-, rfl⟩ := hn
    rw [List.take_of_length_le]
    · exact hy
    · rw [cell, slice]
      exact List.length_take_le _ _

/-- Out of the cells of an object comes what the elements settle to that take part. -/
structure Echoes (o : BindObject) (stmt : Address) (arraySize : Nat) (vars : Table HostVar) (w : World) : Prop where
  single : ∀ x, vars.get? o.var = some (.single o.ty x) → ∃ y, o.Brings stmt w 0 y ∧ Host.Settles o.size o.ty x y
  vector : ∀ xs i x, vars.get? o.var = some (.vector o.ty xs) → xs[i]? = some x → o.Covers arraySize xs.length i →
    ∃ y, o.Brings stmt w i y ∧ Host.Settles o.size o.ty x y

/-- What has arrived comes out again. -/
theorem echoes_of_arrives (hs : o.Stands stmt w) (hshape : o.Shaped) (hsuits : o.Suits vars)
    (hin : o.direction.isIn = true) (hleap : ∀ v, vars.get? o.var = some v → v.Leapless)
    (h : o.Arrives arraySize vars fun i => w.seen? stmt o.name (i + 1)) : o.Echoes stmt arraySize vars w := by
  have hstride := hshape.elemSize_eq
  have hecho : ∀ i size (x : Host o.ty) bs, i < o.elemCount → w.seen? stmt o.name (i + 1) = some bs →
      o.ty.stride o.size = o.ty.stride size → Host.Fits size o.ty x bs → Host.Leapless o.ty x →
      ∃ y, o.Brings stmt w i y ∧ Host.Settles o.size o.ty x y := by
    intro i size x bs hi hseen hsize hfits hx
    obtain ⟨y, hy, hsettles, hlen⟩ := Host.settles_of_fits hsize hfits hx
    refine ⟨y, brings_of_seen hs hi hseen (fun hv => ?_) hy, hsettles⟩
    rw [hstride, ValueType.stride_of_variable hv, Nat.add_sub_cancel]
    exact hlen hv
  refine ⟨fun x hx => ?_, fun xs i x hxs hget hi => ?_⟩
  · have hplain : Host.Leapless o.ty x := hleap _ hx
    cases hform : o.form with
    | cell =>
      have hv : o.ty.isVariable = false := by simpa [BindPlan.Shaped, hform] using hshape
      refine hecho 0 o.size x _ (by simp [BindPlan.elemCount, hform]) (h.cell x hform hx (.inl hin)) rfl ?_ hplain
      have hfits := Host.fits_bytesWithin o.size o.ty x
      rwa [Host.bytesWithin_of_fixed hv] at hfits
    | text size =>
      obtain ⟨bs, hbs, hfits⟩ := h.text size x hform hx hin
      have hsize : o.size = size := by rw [BindPlan.size, hform]
      exact hecho 0 size x bs (by simp [BindPlan.elemCount, hform]) hbs (by rw [hsize]) hfits hplain
    | vector kind elemSize elemCount =>
      obtain ⟨xs, hxs⟩ := hsuits.vector hform
      cases hx.symm.trans hxs
  · cases hform : o.form with
    | vector kind elemSize elemCount =>
      obtain ⟨size, hsize, hall⟩ := h.vector kind elemSize elemCount xs hform hxs (.inl hin)
      obtain ⟨bs, hbs, hfits⟩ := hall i x hget hi
      have helem : o.elemSize = o.ty.stride size := by simp [BindPlan.elemSize, hform, hsize]
      have hcount := Nat.lt_of_lt_of_le (BindPlan.covers_iff.mp hi) (o.count_le_elemCount arraySize xs.length)
      exact hecho i size x bs hcount hbs (hstride.symm.trans helem) hfits
        (hleap _ hxs x (List.mem_of_getElem? hget))
    | _ =>
      obtain ⟨x, hx⟩ := hsuits.single (by simp [hform])
      cases hx.symm.trans hxs

lemma Echoes.congr (h : o.Echoes stmt arraySize vars w) (hm : w.memory = v.memory)
    (hb : w.library.bound? stmt o.name = v.library.bound? stmt o.name) : o.Echoes stmt arraySize vars v := by
  refine ⟨fun x hx => ?_, fun xs i x hxs hget hi => ?_⟩
  · obtain ⟨y, hy, hsettles⟩ := h.single x hx
    exact ⟨y, hy.congr hm hb, hsettles⟩
  · obtain ⟨y, hy, hsettles⟩ := h.vector xs i x hxs hget hi
    exact ⟨y, hy.congr hm hb, hsettles⟩

/-! ### Out of the buffers -/

lemma willing_of_askLength {ty : ValueType} {n : Nat} (h : (o.askLength stmt ty i).run w = (.ok n, v))
    (ha : w.Willing) : v.Willing := by
  unfold askLength at h
  split at h
  · exact ((steadies_unloading stmt 0 o).ask w _ _ trivial).rel h ha
  · obtain ⟨-, rfl⟩ := Prod.mk.inj h
    exact ha

lemma pullFrom_goes {xs : List (Host o.ty)} {count : Nat} (hs : o.Stands stmt w) (ha : w.Willing)
    (hi : i + count ≤ o.elemCount) (hb : ∀ j, i ≤ j → j < i + count → ∃ y, o.Brings stmt w j y) :
    Ends (o.pullFrom stmt o.ty xs i count) w fun r _ => r = .ok () := by
  induction count generalizing w xs i with
  | zero => rfl
  | succ count ih =>
    rw [pullFrom_succ]
    obtain ⟨n, u, hask⟩ := askLength_goes o.ty hs ha (show i < o.elemCount by omega)
    obtain ⟨y, hy⟩ := hb i (Nat.le_refl i) (by omega)
    refine Ends.after hask (Ends.get ?_)
    rw [ofBytes?_of_askLength hask hy]
    obtain ⟨⟨l, hres, rfl⟩, -⟩ := brings_of_askLength hask
    have hunloads : Unloads stmt 0 [] w { w with library := l } := Unloads.of_eq hres rfl rfl
    have hsu := hs.of_unloads hunloads
    have hau : World.Willing { w with library := l } := willing_of_askLength hask ha
    refine Ends.afterUpdate (ih ⟨hsu.buffer, hsu.entry⟩ hau (by omega) fun j hij hj => ?_)
    obtain ⟨z, hz⟩ := hb j (by omega) (by omega)
    exact ⟨z, hz.congr rfl (hres.entries stmt o.name (by simp)).symm⟩

/-- An object out of whose cells values come is unloaded. -/
theorem pull_goes (hs : o.Stands stmt w) (hshape : o.Shaped) (hsuits : o.Suits w.vars) (ha : w.Willing)
    (he : o.Echoes stmt arraySize w.vars w) : Ends (o.pull stmt arraySize) w fun r _ => r = .ok () := by
  unfold BindObject.pull
  split
  swap
  · rfl
  apply Ends.get
  cases hform : o.form with
  | cell =>
    obtain ⟨x, hx⟩ := hsuits.single (by simp [hform])
    have hv : o.ty.isVariable = false := by simpa [BindPlan.Shaped, hform] using hshape
    obtain ⟨y, hy, -⟩ := he.single x hx
    rw [Brings, hv, if_neg Bool.false_ne_true] at hy
    rw [hx]
    apply Ends.get
    rw [hy]
    rfl
  | text size =>
    obtain ⟨x, hx⟩ := hsuits.single (by simp [hform])
    have hv : o.ty.isVariable = true := by simpa [BindPlan.Shaped, hform] using hshape
    have helem : o.elemSize = size + 1 := by simp [BindPlan.elemSize, hform]
    have hi : 0 < o.elemCount := by simp [BindPlan.elemCount, hform]
    obtain ⟨y, hy, -⟩ := he.single x hx
    -- the declared size leaves the last byte of the cell, as that of an element does
    obtain ⟨n, u, hask⟩ := askLength_goes o.ty hs ha hi
    have hdecodes := ofBytes?_of_askLength hask hy
    rw [askLength, if_pos hv, helem, Nat.add_sub_cancel] at hask
    rw [hx]
    refine Ends.after hask (Ends.get ?_)
    rw [hdecodes]
    rfl
  | vector kind elemSize elemCount =>
    obtain ⟨xs, hxs⟩ := hsuits.vector hform
    have hcover := o.count_le_elemCount arraySize xs.length
    have hlen := o.count_le_length arraySize hform xs.length
    rw [hxs]
    have hgo : Ends (o.pullFrom stmt o.ty xs 0 (o.count arraySize xs.length)) w fun r _ => r = .ok () := by
      refine pullFrom_goes hs ha (by omega) fun j _ hj => ?_
      rw [Nat.zero_add] at hj
      obtain ⟨y, hy, -⟩ := he.vector xs j _ hxs (List.getElem?_eq_getElem (by omega)) (BindPlan.covers_iff.mpr hj)
      exact ⟨y, hy⟩
    exact Ends.bind (fun _ _ _ => rfl) fun e v hr => hgo.elim hr

/-- Objects with variables of their own are unloaded when values come out of all their cells. -/
theorem pullAll_goes (h : Fitted os stmt w) (ha : w.Willing) (hvars : (os.map fun o => o.var).Nodup)
    (he : ∀ o ∈ os, o.Echoes stmt arraySize w.vars w) :
    Ends (exchangeAll (fun o => o.pull stmt arraySize) os) w fun r _ => r = .ok () := by
  induction os generalizing w with
  | nil => rfl
  | cons o rest ih =>
    obtain ⟨hs, hshape, hsuits⟩ := h o List.mem_cons_self
    obtain ⟨hown, hvars⟩ := List.nodup_cons.mp hvars
    have hgo := pull_goes hs hshape hsuits ha (he o List.mem_cons_self)
    refine Ends.bind (fun _ v hr => ?_) fun e v hr => ?_
    · have hpull := ok_of_dressed hr
      have hunloads : Unloads stmt arraySize [o] w v :=
        ((unloads_unloading (List.mem_singleton_self o)).pull trivial).rel hpull
      have hv : Fitted rest stmt v := fun p hp => h.of_unloads hunloads p (List.mem_cons_of_mem o hp)
      refine ih hv (((steadies_unloading stmt arraySize o).pull trivial).rel hpull ha) hvars fun p hp => ?_
      have hkept : v.vars.get? p.var = w.vars.get? p.var := by
        refine hunloads.others p.var fun q hq _ heq => hown ?_
        obtain rfl := List.mem_singleton.mp hq
        exact List.mem_map.mpr ⟨p, hp, heq.symm⟩
      have hecho := (he p (List.mem_cons_of_mem o hp)).congr hunloads.memory.symm
        (hunloads.library.entries stmt p.name (by simp)).symm
      exact ⟨fun x hx => hecho.single x (hkept ▸ hx), fun xs i x hxs => hecho.vector xs i x (hkept ▸ hxs)⟩
    · obtain ⟨e', hpull, -⟩ := error_of_dressed hr
      cases hgo.elim hpull

/-! ### What has become of variables -/

/-- What has been delivered out of cells that echo their variables has settled. -/
theorem settles_of_delivers (h : Delivers os stmt arraySize w v) (hvars : (os.map fun o => o.var).Nodup) (ho : o ∈ os)
    (hout : o.direction.isOut = true) (hshape : o.Shaped) (hsuits : o.Suits w.vars)
    (he : o.Echoes stmt arraySize w.vars w) :
    ∃ x y, w.vars.get? o.var = some x ∧ v.vars.get? o.var = some y ∧ o.Settles arraySize x y := by
  obtain ⟨before, after, hos⟩ := List.append_of_mem ho
  have hlast : ∀ p ∈ after, p.var ≠ o.var := by
    rw [hos, List.map_append, List.map_cons, List.nodup_append] at hvars
    exact fun p hp heq => (List.nodup_cons.mp hvars.2.1).1 (heq ▸ List.mem_map_of_mem hp)
  cases hform : o.form with
  | cell =>
    obtain ⟨x, hx⟩ := hsuits.single (by simp [hform])
    have hv : o.ty.isVariable = false := by simpa [BindPlan.Shaped, hform] using hshape
    obtain ⟨y, hy, hdecodes⟩ := h.cell before o after x hos hout hform hx fun p hp _ => hlast p hp
    obtain ⟨z, hz, hsettles⟩ := he.single x hx
    rw [Brings, hv, if_neg Bool.false_ne_true, hdecodes] at hz
    obtain rfl := Option.some.inj hz
    exact ⟨_, _, hx, hy, .single x y hsettles⟩
  | text size =>
    obtain ⟨x, hx⟩ := hsuits.single (by simp [hform])
    have hv : o.ty.isVariable = true := by simpa [BindPlan.Shaped, hform] using hshape
    have helem : o.elemSize - 1 = size := by simp [BindPlan.elemSize, hform]
    obtain ⟨y, b, hy, hb, hdecodes⟩ := h.text before o after size x hos hout hform hx fun p hp _ => hlast p hp
    have hbrings : o.Brings stmt w 0 y := by
      rw [Brings, if_pos hv, helem]
      exact ⟨b, hb, hdecodes⟩
    obtain ⟨z, hz, hsettles⟩ := he.single x hx
    obtain rfl := hbrings.unique hz
    exact ⟨_, _, hx, hy, .single x z hsettles⟩
  | vector kind elemSize elemCount =>
    obtain ⟨xs, hxs⟩ := hsuits.vector hform
    obtain ⟨ys, hys, hlen, hkept⟩ := h.vector o.var o.ty xs hxs
    refine ⟨_, _, hxs, hys, .vector xs ys hlen fun i x hx => ?_⟩
    split
    · rename_i hi
      have hcovers : o.Covers arraySize xs.length i := BindPlan.covers_iff.mpr hi
      obtain ⟨ys', y, hys', hy, hbrings⟩ := h.element before o after xs i hos hout hxs
        (List.getElem?_eq_some_iff.mp hx).1 hcovers fun p hp _ heq => absurd heq (hlast p hp)
      obtain ⟨z, hz, hsettles⟩ := he.vector xs i x hxs hx hcovers
      obtain rfl := hbrings.unique hz
      have hsame := hys.symm.trans hys'
      simp only [Option.some.injEq, HostVar.vector.injEq, heq_eq_eq, true_and] at hsame
      subst hsame
      exact ⟨z, hy, hsettles⟩
    · rename_i hi
      refine ⟨x, (hkept i fun p hp _ heq => ?_).trans hx, rfl⟩
      rw [List.inj_on_of_nodup_map hvars hp ho heq]
      exact fun hcovers => hi (BindPlan.covers_iff.mp hcovers)

end BindObject

namespace Statement
open BindObject
variable {s : Statement} {w : World} {stmt : Address} {d : StatementData}

/-- A statement whose objects have variables of their own is unloaded when values come out of all their cells. -/
theorem unload_goes (h : Fitted d.binds.objects stmt w) (ha : w.Willing)
    (hvars : (d.binds.objects.map fun o => o.var).Nodup)
    (he : ∀ o ∈ d.binds.objects, o.Echoes stmt d.arraySize w.vars w) :
    Ends (s.unload stmt d) w fun r _ => r = .ok () := by
  obtain ⟨h1, h2, h3⟩ := s.putData_aside { d with status := .executed } w
  have hput := s.fitted_putData h { d with status := .executed }
  have hwilling : (s.putData { d with status := .executed } w).Willing := by
    unfold World.Willing
    rw [h1]
    exact ha
  refine Ends.afterUpdate (Ends.bind (fun _ _ _ => rfl) fun e v hr => ?_)
  obtain ⟨e', hpull, -⟩ := BindObject.error_of_dressed hr
  cases (pullAll_goes hput hwilling hvars fun o ho => h3 ▸ (he o ho).congr h2.symm (by rw [h1])).elim hpull

end Statement
end DbClient
