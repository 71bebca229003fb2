import DbClient.Handle.Wrapper
import DbClient.Proofs.Act
import DbClient.Proofs.Forest.Invariant
import DbClient.Proofs.Quiet.Library

/-! Quiet operations: no handle is wrapped or released, the native library takes quiet steps on handles of
live nodes, and buffers keep their lengths. -/
namespace DbClient

/-- The same buffers, of the same lengths. -/
structure Memory.Steady (m m' : Memory) : Prop where
  lawful : m.Lawful → m'.Lawful
  lengths : m.Lawful → ∀ b, (m'.get? b).map List.length = (m.get? b).map List.length
  next : m.next ≤ m'.next

namespace Memory.Steady
variable {m m' m'' : Memory}

@[refl] lemma refl (m : Memory) : Steady m m := ⟨id, fun _ _ => rfl, Nat.le_refl _⟩

lemma trans (h : Steady m m') (h' : Steady m' m'') : Steady m m'' :=
  ⟨fun hl => h'.lawful (h.lawful hl), fun hl b => (h'.lengths (h.lawful hl) b).trans (h.lengths hl b),
    Nat.le_trans h.next h'.next⟩

/-- Bytes laid over a buffer leave its length alone. -/
lemma write (buffer offset : Nat) (bytes : List UInt8) (m : Memory) :
    Steady m (m.modify buffer fun old => overlay old offset bytes) := by
  refine ⟨fun hl => hl.modify _ _, fun _ b => ?_, Nat.le_refl _⟩
  rw [Table.get?_modify]
  split
  · simp [Function.comp_def]
  · rfl

/-- A new buffer that is freed again. -/
lemma add_erase (bytes : List UInt8) (m : Memory) : Steady m ((m.add bytes).erase m.next) :=
  ⟨fun hl => (hl.add bytes).erase _, fun hl b => by rw [hl.get?_add_erase], Nat.le_succ _⟩

end Memory.Steady

namespace World
variable {w w' w'' : World} {id : Nat} {n : Node}

/-- A native handle that a live node answers for. -/
def Answers (w : World) (h : Address) : Prop := ∃ id n, w.Live id n ∧ n.native = h

/-- A quiet step of the world. -/
structure Quiet (w w' : World) : Prop where
  nodes : w'.nodes = w.nodes
  releases : w'.releases = w.releases
  envs : w.envs.Lawful → w'.envs.Lawful
  stores : ∀ env, w'.store? env = w.store? env
  library : w.library.Quiet w.Answers w'.library
  memory : w.memory.Steady w'.memory

namespace Quiet

/-- A step that changes none of the parts of which quiet steps keep something. -/
lemma of_eq (nodes : w'.nodes = w.nodes) (releases : w'.releases = w.releases) (envs : w'.envs = w.envs)
    (library : w'.library = w.library) (memory : w'.memory = w.memory) : Quiet w w' :=
  ⟨nodes, releases, fun h => envs ▸ h, fun env => by simp only [store?, envs], by rw [library], by rw [memory]⟩

@[refl] lemma refl (w : World) : Quiet w w := of_eq rfl rfl rfl rfl rfl

lemma live (h : Quiet w w') : w'.Live = w.Live := by
  funext id n
  simp only [Live, h.nodes]

lemma answers (h : Quiet w w') : w'.Answers = w.Answers := by
  funext a
  simp only [Answers, h.live]

theorem trans (h : Quiet w w') (h' : Quiet w' w'') : Quiet w w'' :=
  ⟨h'.nodes.trans h.nodes, h'.releases.trans h.releases, fun hl => h'.envs (h.envs hl),
    fun env => (h'.stores env).trans (h.stores env), h.library.trans (h.answers ▸ h'.library),
    h.memory.trans h'.memory⟩

instance : Std.Refl Quiet := ⟨refl⟩

instance : IsTrans World Quiet := ⟨fun _ _ _ => trans⟩

/-- A quiet step of the native library. -/
lemma ofLibrary {l : Library} (h : w.library.Quiet w.Answers l) : Quiet w { w with library := l } :=
  ⟨rfl, rfl, id, fun _ => rfl, h, .refl _⟩

/-- A change of an environment that leaves its store alone. -/
lemma modifyEnv {f : EnvState → EnvState} (hf : ∀ e, (f e).store = e.store) (env : Nat) (w : World) :
    Quiet w (w.modifyEnv env f) :=
  ⟨rfl, rfl, fun h => h.modify _ _, fun i => store?_modifyEnv_of_eq hf env w i, .refl _, .refl _⟩

lemma writeBuffer (buffer offset : Nat) (bytes : List UInt8) (w : World) :
    Quiet w (w.writeBuffer buffer offset bytes) :=
  ⟨rfl, rfl, id, fun _ => rfl, .refl _, .write buffer offset bytes w.memory⟩

end Quiet
end World

namespace Wrapper
variable {h : Wrapper} {w : World} {id : Nat} {n : Node}

lemma liveNode?_eq_some : h.liveNode? w = some (id, n) ↔ h.node = some id ∧ w.Live id n := by
  unfold liveNode? World.Live
  cases h.node with
  | none => simp
  | some j =>
    simp only [Option.bind_some, Option.some.injEq]
    cases hj : w.nodes.get? j with
    | none =>
      simp only [reduceCtorEq, false_iff, not_and]
      rintro rfl hn
      exact absurd (hj.symm.trans hn) (by simp)
    | some m =>
      by_cases hm : m.released = true
      · simp only [hm, if_true, reduceCtorEq, false_iff, not_and]
        rintro rfl hn hr
        obtain rfl := Option.some.inj (hj.symm.trans hn)
        exact absurd (hm.symm.trans hr) (by simp)
      · simp only [hm, Bool.false_eq_true, if_false, Option.some.injEq, Prod.mk.injEq]
        constructor
        · rintro ⟨rfl, rfl⟩
          exact ⟨rfl, hj, Bool.eq_false_iff.mpr hm⟩
        · rintro ⟨rfl, hn, -⟩
          exact ⟨rfl, Option.some.inj (hj.symm.trans hn)⟩

lemma isNull_eq_false : h.isNull w = false ↔ ∃ id n, h.node = some id ∧ w.Live id n := by
  unfold isNull
  constructor
  · intro hf
    cases hl : h.liveNode? w with
    | none =>
      rw [hl] at hf
      cases hf
    | some p => exact ⟨p.1, p.2, liveNode?_eq_some.mp hl⟩
  · rintro ⟨id, n, hl⟩
    rw [liveNode?_eq_some.mpr hl]
    rfl

lemma native_of_live (hn : h.node = some id) (hl : w.Live id n) : h.native w = n.native := by
  rw [native, liveNode?_eq_some.mpr ⟨hn, hl⟩]
  rfl

end Wrapper

namespace Act
variable {α β : Type} {w : World} {R : World → World → Prop}

/-- An operation that begins by asking for the native handle of a wrapper. -/
lemma Does.live [Std.Refl R] {h : Wrapper} {f : Address → Act β}
    (hf : ∀ id n, h.node = some id → w.Live id n → Does R (f n.native) w) : Does R (h.live >>= f) w := by
  unfold Wrapper.live
  rw [bind_assoc]
  apply Does.get
  split
  · exact Does.throw_bind _
  · rename_i hnull
    obtain ⟨id, n, hn, hl⟩ := Wrapper.isNull_eq_false.mp (Bool.eq_false_iff.mpr hnull)
    rw [pure_bind, Wrapper.native_of_live hn hl]
    exact hf id n hn hl

/-- What it means that a wrapper has given its native handle. -/
lemma ok_of_live {h : Wrapper} {a : Address} {w' : World} (hr : h.live.run w = (.ok a, w')) :
    w' = w ∧ ∃ id n, h.node = some id ∧ w.Live id n ∧ n.native = a := by
  unfold Wrapper.live at hr
  rw [run_bind, run_get] at hr
  dsimp only at hr
  split at hr
  · cases hr
  · rename_i hnull
    obtain ⟨id, n, hn, hl⟩ := Wrapper.isNull_eq_false.mp (Bool.eq_false_iff.mpr hnull)
    obtain ⟨h1, h2⟩ := Prod.mk.inj hr
    exact ⟨h2.symm, id, n, hn, hl, (Wrapper.native_of_live hn hl).symm.trans (Except.ok.inj h1)⟩

end Act

namespace World.Quiet
open Act
variable {α β : Type} {w : World} {dress : ClientError → ClientError}

lemma note (n : Notice) : Does Quiet (Act.note n) w := of_eq rfl rfl rfl rfl rfl

lemma native {f : Library → α × Library} (hf : w.library.Quiet w.Answers (f w.library).2) :
    Does Quiet (Act.native f) w := ofLibrary hf

/-- An operation that asks a primitive for something it has to give. -/
lemma require {f : Library → Option α × Library} (hf : ∀ l : Library, l.Quiet w.Answers (f l).2) :
    Does Quiet (Act.require dress f) w :=
  Does.require (ofLibrary (hf w.library)) fun l => ofLibrary (.lastError l)

lemma optional {f : Library → Option α × Library} (hf : ∀ l : Library, l.Quiet w.Answers (f l).2) :
    Does Quiet (Act.optional dress f) w := by
  refine (native (hf _)).seq fun r w' _ => ?_
  cases r with
  | some x => exact Does.pure _
  | none =>
    refine (native (.takeError _)).seq fun r w' _ => ?_
    cases r with
    | some e => exact Does.throw _
    | none => exact Does.pure _

end World.Quiet
end DbClient
