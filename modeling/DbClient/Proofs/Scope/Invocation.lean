import DbClient.Proofs.Native

/-! Invocations: the calls of primitives of the native library as data, with what any of them can do. What a call does
depends on no error that an earlier one has left; it has to do with one handle only, and what it leaves as an error is
either injected or its own. -/
namespace DbClient

/-- An error that the library leaves by itself. Its cause is always known. -/
def NativeError.Own (e : NativeError) : Prop := e = .invalidHandle ∨ ∃ code message, e = .single code message

/-- A call of a primitive. -/
inductive Invocation where
  | create (kind : HandleKind) (parent : Address)
  | destroy (kind : HandleKind) (h : Address)
  | getAttr (h : Address) (attr : Attr)
  | setAttr (h : Address) (attr : Attr) (v : Value)
  | prepare (stmt : Address) (sql : String) (mode : PrepareMode)
  | bind (stmt : Address) (d : BindDesc)
  | register (stmt : Address) (name : String) (ty : ValueType) (maxLength : Nat)
  | dataSize (stmt : Address) (name : String) (pos : Nat)
  | setDataSize (stmt : Address) (name : String) (pos size : Nat)
  | execute (stmt : Address) (iters : Nat) (memory : Memory)
  | resultset (stmt : Address)
  | nextResultset (stmt : Address)
  | fetch (rs : Address) (move : FetchOp)
  | currentRow (rs : Address)
  | columnCount (rs : Address)
  | columnValue (rs : Address) (index : Nat)
  | breakCall (conn : Address)

namespace Invocation

/-- Whether a primitive gave something, and the library after it. -/
def gave {α : Type} (p : Option α × Library) : Bool × Library := (p.1.isSome, p.2)

/-- Calls the primitive: false if it gave nothing. -/
def run : Invocation → Library → Bool × Library
  | create kind parent, l => gave (l.create kind parent)
  | destroy kind h, l => gave (l.destroy kind h)
  | getAttr h attr, l => gave (l.getAttr h attr)
  | setAttr h attr v, l => gave (l.setAttr h attr v)
  | prepare stmt sql mode, l => gave (l.prepare stmt sql mode)
  | bind stmt d, l => gave (l.bind stmt d)
  | register stmt name ty maxLength, l => gave (l.register stmt name ty maxLength)
  | dataSize stmt name pos, l => gave (l.dataSize stmt name pos)
  | setDataSize stmt name pos size, l => gave (l.setDataSize stmt name pos size)
  | execute stmt iters memory, l => gave (l.execute stmt iters memory)
  | resultset stmt, l => gave (l.resultset stmt)
  | nextResultset stmt, l => gave (l.nextResultset stmt)
  | fetch rs move, l => gave (l.fetch rs move)
  | currentRow rs, l => gave (l.currentRow rs)
  | columnCount rs, l => gave (l.columnCount rs)
  | columnValue rs index, l => gave (l.columnValue rs index)
  | breakCall conn, l => gave (l.breakCall conn)

/-- The handle that the primitive is called with. -/
def handle : Invocation → Address
  | create _ h | destroy _ h | getAttr h _ | setAttr h .. | prepare h .. | bind h _ | register h .. | dataSize h ..
  | setDataSize h .. | execute h .. | resultset h | nextResultset h | fetch h _ | currentRow h | columnCount h
  | columnValue h _ | breakCall h => h

/-- The name under which the primitive can be made to fail. -/
def op? : Invocation → Option Primitive
  | create .. => some .create
  | destroy .. => some .destroy
  | getAttr .. => some .getAttr
  | setAttr .. => some .setAttr
  | prepare .. => some .prepare
  | bind .. => some .bind
  | register .. => some .register
  | dataSize .. | setDataSize .. => some .dataSize
  | execute .. => some .execute
  | resultset _ | nextResultset _ => some .resultset
  | fetch .. => some .fetch
  | currentRow _ | columnCount _ => none
  | columnValue .. => some .columnValue
  | breakCall _ => some .breakCall

/-- A call that may give nothing without having failed. -/
def Seeks : Invocation → Prop
  | resultset _ | nextResultset _ | fetch .. | currentRow _ => True
  | _ => False

/-- The failure that is injected into the primitive. -/
def injected? (i : Invocation) (l : Library) : Option NativeError := i.op?.bind l.failures.get?

/-- The call fails and records an error, whatever error was there before. -/
def Records (i : Invocation) (l : Library) (e : NativeError) : Prop :=
  (i.run l).1 = false ∧ ∀ stale, (i.run { l with error := stale }).2.error = some e

end Invocation

namespace Library
variable {α : Type} {l l' m : Library} {op : Primitive} {h stmt : Address} {body : Library → Option α × Library}

/-! ### Failures -/

/-- An injected failure fires. -/
lemma run_injected {e : NativeError} (hf : l.failures.get? op = some e) : run op h body l =
    (none, { l.called (some op) h with failures := l.failures.erase op, error := some e }) := by
  unfold run
  dsimp only
  rw [show (l.called (some op) h).failures.get? op = some e from hf]
  rfl

/-- Without one, the primitive starts without an error. -/
lemma run_free (hf : l.failures.get? op = none) :
    run op h body l = body { l.called (some op) h with error := none } := by
  unfold run
  dsimp only
  rw [show (l.called (some op) h).failures.get? op = none from hf]

/-- A result that is missing is explained: the library left an error of its own or, where that is allowed, none. -/
def Explained (seeks : Prop) (p : Option α × Library) : Prop :=
  p.1 = none → (∃ e, p.2.error = some e ∧ e.Own) ∨ seeks ∧ p.2.error = none

variable {seeks : Prop}

lemma explained_fail {e : NativeError} (he : e.Own) : Explained seeks (fail (α := α) e l) := fun _ => .inl ⟨e, rfl, he⟩

lemma explained_some (x : α) : Explained seeks (some x, l) := nofun

lemma own_invalidHandle : NativeError.Own .invalidHandle := .inl rfl

lemma own_single (code : Int) (message : String) : NativeError.Own (.single code message) := .inr ⟨code, message, rfl⟩

lemma explained_withPrepared {f : NativeStatement → String → Library → Option α × Library}
    (hf : ∀ st sql l, Explained seeks (f st sql l)) : Explained seeks (withPrepared stmt f l) := by
  unfold withPrepared
  split
  · exact explained_fail own_invalidHandle
  · split
    · exact explained_fail (own_single _ _)
    · exact hf _ _ _

lemma explained_withBound {name : String} {pos : Nat} {f : Bound → Library → Option α × Library}
    (hf : ∀ b l, Explained seeks (f b l)) : Explained seeks (withBound stmt name pos f l) := by
  unfold withBound
  split
  · exact explained_fail (own_single _ _)
  · split
    · exact hf _ _
    · exact explained_fail (own_single _ _)

lemma explained_run (hf : l.failures.get? op = none) (hb : ∀ m, m.error = none → Explained seeks (body m)) :
    Explained seeks (run op h body l) := by
  rw [run_free hf]
  exact hb _ rfl

end Library

namespace Invocation
open Library
variable {i : Invocation} {l : Library} {op : Primitive} {e : NativeError}

/-- What a call does is determined without the last error. -/
lemma run_stale (hop : i.op? = some op) (stale : Option NativeError) : i.run { l with error := stale } = i.run l := by
  have hrun : ∀ {α : Type} (op : Primitive) (h : Address) (body : Library → Option α × Library),
      Library.run op h body { l with error := stale } = Library.run op h body l := fun op h body => by
    cases hf : l.failures.get? op with
    | some e => rw [run_injected hf, run_injected (l := { l with error := stale }) hf]; rfl
    | none => rw [run_free hf, run_free (l := { l with error := stale }) hf]; rfl
  cases i with
  | currentRow => cases hop
  | columnCount => cases hop
  | _ => exact congrArg gave (hrun _ _ _)

/-- An injected failure fires. -/
lemma run_of_injected (hop : i.op? = some op) (hf : l.failures.get? op = some e) :
    i.run l = (false, { l.called (some op) i.handle with failures := l.failures.erase op, error := some e }) := by
  cases i with
  | currentRow => cases hop
  | columnCount => cases hop
  | _ =>
    obtain rfl := Option.some.inj hop
    exact congrArg gave (run_injected hf)

/-- A call without an injected failure that gives nothing has left an error of its own; one that seeks may have left
none. -/
theorem explained (hf : i.injected? l = none) (hr : (i.run l).1 = false) :
    (∃ e, (i.run l).2.error = some e ∧ e.Own) ∨ i.Seeks ∧ (i.op?.isSome → (i.run l).2.error = none) := by
  have hnone : ∀ {α : Type} {p : Option α × Library}, (gave p).1 = false → p.1 = none := fun h =>
    Option.isNone_iff_eq_none.mp (Option.isSome_eq_false_iff.mp h)
  have hseeks : ∀ {α : Type} {p : Option α × Library}, Explained False p → (gave p).1 = false →
      ∃ e, (gave p).2.error = some e ∧ e.Own := fun hp h => (hp (hnone h)).resolve_right fun h => h.1
  cases i with
  | create kind parent =>
    refine .inl (hseeks (explained_run hf fun m _ => ?_) hr)
    split
    · exact explained_fail own_invalidHandle
    · exact explained_some _
  | destroy kind h =>
    refine .inl (hseeks (explained_run hf fun m _ => ?_) hr)
    split
    · exact explained_fail own_invalidHandle
    · exact explained_some _
  | getAttr h attr =>
    refine .inl (hseeks (explained_run hf fun m _ => ?_) hr)
    split
    · exact explained_fail own_invalidHandle
    · split
      · exact explained_some _
      · split
        · exact explained_some _
        · exact explained_fail (own_single _ _)
  | setAttr h attr v =>
    refine .inl (hseeks (explained_run hf fun m _ => ?_) hr)
    split
    · exact explained_fail own_invalidHandle
    · exact explained_some _
  | prepare stmt sql mode =>
    refine .inl (hseeks (explained_run hf fun m _ => ?_) hr)
    split
    · exact explained_fail own_invalidHandle
    · split
      · exact explained_fail (own_single _ _)
      · exact explained_some _
  | bind stmt d =>
    exact .inl (hseeks (explained_run hf fun m _ => explained_withPrepared fun _ _ _ => explained_some _) hr)
  | register stmt name ty maxLength =>
    exact .inl (hseeks (explained_run hf fun m _ => explained_withPrepared fun _ _ _ => explained_some _) hr)
  | dataSize stmt name pos =>
    exact .inl (hseeks (explained_run hf fun m _ => explained_withBound fun _ _ => explained_some _) hr)
  | setDataSize stmt name pos size =>
    refine .inl (hseeks (explained_run hf fun m _ => explained_withBound fun b l => ?_) hr)
    split
    · exact explained_some _
    · exact explained_fail (own_single _ _)
  | execute stmt iters memory =>
    exact .inl (hseeks (explained_run hf fun m _ => explained_withPrepared fun _ _ _ => explained_some _) hr)
  | resultset stmt =>
    have h : Explained True (l.resultset stmt) := explained_run hf fun m hm => by
      split
      · exact explained_fail own_invalidHandle
      · split
        · exact fun _ => .inr ⟨trivial, hm⟩
        · exact explained_some _
    exact (h (hnone hr)).imp_right fun h => ⟨trivial, fun _ => h.2⟩
  | nextResultset stmt =>
    have h : Explained True (l.nextResultset stmt) := explained_run hf fun m hm => by
      split
      · exact explained_fail own_invalidHandle
      · exact fun _ => .inr ⟨trivial, hm⟩
    exact (h (hnone hr)).imp_right fun h => ⟨trivial, fun _ => h.2⟩
  | fetch rs move =>
    have h : Explained True (l.fetch rs move) := explained_run hf fun m hm => by
      split
      · exact explained_fail own_invalidHandle
      · exact fun _ => .inr ⟨trivial, hm⟩
    exact (h (hnone hr)).imp_right fun h => ⟨trivial, fun _ => h.2⟩
  | currentRow rs => exact .inr ⟨trivial, fun h => by cases h⟩
  | columnCount rs =>
    have h : Explained False (l.columnCount rs) := by
      unfold Library.columnCount
      split
      · exact explained_fail own_invalidHandle
      · exact explained_some _
    exact .inl (hseeks h hr)
  | columnValue rs index =>
    refine .inl (hseeks (explained_run hf fun m _ => ?_) hr)
    split
    · exact explained_fail own_invalidHandle
    · split
      · exact explained_fail (own_single _ _)
      · split
        · exact explained_some _
        · exact explained_fail (own_single _ _)
  | breakCall conn =>
    refine .inl (hseeks (explained_run hf fun m _ => ?_) hr)
    split
    · exact explained_fail own_invalidHandle
    · exact explained_some _

/-- A call that gives nothing records the error that is there after it, unless it is the one question that leaves the
last error alone. -/
theorem records (hi : ∀ rs, i ≠ .currentRow rs) (hr : (i.run l).1 = false) (he : (i.run l).2.error = some e) :
    i.Records l e := by
  refine ⟨hr, fun stale => ?_⟩
  cases hop : i.op? with
  | some op => rw [run_stale hop, he]
  | none =>
    cases i with
    | columnCount rs =>
      change (Library.columnCount rs l).1.isSome = false at hr
      change (Library.columnCount rs l).2.error = some e at he
      change (Library.columnCount rs { l with error := stale }).2.error = some e
      unfold Library.columnCount at hr he ⊢
      split at hr
      · rename_i hn
        rw [hn] at he
        rw [show ({ l with error := stale } : Library).rsets.get? rs = none from hn]
        exact he
      · cases hr
    | currentRow rs => exact absurd rfl (hi rs)
    | _ => cases hop

/-- A call that does not seek records an error whenever it gives nothing. -/
theorem records_of_failed (hi : ¬i.Seeks) (hr : (i.run l).1 = false) :
    ∃ e, (i.run l).2.error = some e ∧ i.Records l e := by
  have herror : ∃ e, (i.run l).2.error = some e := by
    cases hf : i.injected? l with
    | some e =>
      obtain ⟨op, hop, hf⟩ := Option.bind_eq_some_iff.mp hf
      exact ⟨e, by rw [run_of_injected hop hf]⟩
    | none =>
      obtain ⟨e, he, -⟩ | h := explained hf hr
      · exact ⟨e, he⟩
      · exact absurd h.1 hi
  obtain ⟨e, he⟩ := herror
  exact ⟨e, he, records (fun rs h => hi (h ▸ trivial)) hr he⟩

/-- Where an error comes from that a call records: it was injected, or it is the library's own. -/
theorem Records.cause (h : i.Records l e) : i.injected? l = some e ∨ i.injected? l = none ∧ e.Own := by
  cases hf : i.injected? l with
  | some e' =>
    obtain ⟨op, hop, hf⟩ := Option.bind_eq_some_iff.mp hf
    have herror := h.2 l.error
    rw [run_of_injected hop hf] at herror
    exact .inl herror
  | none =>
    refine .inr ⟨rfl, ?_⟩
    obtain ⟨e', he, hown⟩ | ⟨-, hnone⟩ := explained hf h.1
    · exact Option.some.inj (he.symm.trans (h.2 l.error)) ▸ hown
    · cases hop : i.op? with
      | some op => exact absurd ((hnone (hop ▸ rfl)).symm.trans (h.2 l.error)) nofun
      | none =>
        cases i with
        | currentRow rs => exact absurd (h.2 none) nofun
        | columnCount rs =>
          obtain ⟨e', he, hown⟩ | hs := explained (i := .columnCount rs) hf h.1
          · exact Option.some.inj (he.symm.trans (h.2 l.error)) ▸ hown
          · exact hs.1.elim
        | _ => cases hop

end Invocation
end DbClient
