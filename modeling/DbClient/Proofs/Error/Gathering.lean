import DbClient.Error
import Mathlib.Tactic.Lemma

/-! The context that an error gathers on its way out. The layers that an error passes through add details to it, each
of them to one field of its context; what a field is told first stays, in whatever order the fields are told. -/
namespace DbClient

/-- What a layer has to tell of an error that passes through it. A text of a statement need not be known. -/
inductive Detail where
  | sql (text : Option String)
  | bind (name : String)
  | row (number : Nat)
  | handle (address : Address)
  deriving Repr, DecidableEq

/-- A field of a context. -/
inductive ContextField where
  | sql | bind | row | handle
  deriving Repr, DecidableEq

namespace Detail

/-- The field that a detail is told to. -/
def field : Detail → ContextField
  | sql _ => .sql
  | bind _ => .bind
  | row _ => .row
  | handle _ => .handle

/-- What a detail tells, apart from any other one. -/
def known : Detail → Context
  | sql text => { Context.empty with sql := text }
  | bind name => { Context.empty with bind := some name }
  | row number => { Context.empty with row := some number }
  | handle address => { Context.empty with handle := some address.number }

/-- Adds a detail to an error. -/
def add : Detail → ClientError → ClientError
  | sql text => ClientError.withSql text
  | bind name => ClientError.withBind name
  | row number => ClientError.withRow number
  | handle address => ClientError.withHandle address

end Detail

/-- An error after it has passed through layers that add details, the innermost first. -/
def ClientError.gather (ds : List Detail) (e : ClientError) : ClientError := ds.foldl (fun e d => d.add e) e

/-- What is known from one context, or else from another one. -/
def Context.or (c d : Context) : Context :=
  ⟨c.sql.or d.sql, c.bind.or d.bind, c.row.or d.row, c.handle.or d.handle⟩

/-- What details tell together: each field the first that it is told. -/
def Context.ofDetails (ds : List Detail) : Context where
  sql := ds.findSome? fun d => d.known.sql
  bind := ds.findSome? fun d => d.known.bind
  row := ds.findSome? fun d => d.known.row
  handle := ds.findSome? fun d => d.known.handle

namespace Context

lemma or_assoc (c d e : Context) : (c.or d).or e = c.or (d.or e) := by simp only [or, Option.or_assoc]

lemma or_empty (c : Context) : c.or empty = c := by simp only [or, empty, Option.or_none]

lemma ofDetails_cons (d : Detail) (ds : List Detail) : ofDetails (d :: ds) = d.known.or (ofDetails ds) := by
  have hcons : ∀ {α : Type} (f : Detail → Option α), (d :: ds).findSome? f = (f d).or (ds.findSome? f) := fun f => by
    rw [List.findSome?_cons]
    cases f d <;> rfl
  simp only [ofDetails, or, hcons]

/-- For a field only those details matter that are told to it. -/
lemma findSome?_told {α : Type} {f : Detail → Option α} {field : ContextField}
    (hf : ∀ d : Detail, d.field ≠ field → f d = none) (ds : List Detail) :
    (ds.filter fun d => d.field = field).findSome? f = ds.findSome? f := by
  induction ds with
  | nil => rfl
  | cons d ds ih =>
    rw [List.findSome?_cons]
    by_cases hd : d.field = field
    · rw [List.filter_cons_of_pos (by simpa using hd), List.findSome?_cons, ih]
    · rw [List.filter_cons_of_neg (by simpa using hd), hf d hd, ih]

/-- Details that tell each field the same in the same order tell the same. -/
lemma ofDetails_congr {ds es : List Detail}
    (h : ∀ field, (ds.filter fun d => d.field = field) = es.filter fun d => d.field = field) :
    ofDetails ds = ofDetails es := by
  have hfield : ∀ {α : Type} (f : Detail → Option α) (field : ContextField),
      (∀ d : Detail, d.field ≠ field → f d = none) → ds.findSome? f = es.findSome? f := fun f field hf => by
    rw [← findSome?_told hf ds, ← findSome?_told hf es, h field]
  have htold : ∀ d : Detail, (d.field ≠ .sql → d.known.sql = none) ∧ (d.field ≠ .bind → d.known.bind = none) ∧
      (d.field ≠ .row → d.known.row = none) ∧ (d.field ≠ .handle → d.known.handle = none) := fun d => by
    cases d <;> simp [Detail.field, Detail.known, Context.empty]
  unfold ofDetails
  rw [hfield _ .sql fun d => (htold d).1, hfield _ .bind fun d => (htold d).2.1, hfield _ .row fun d => (htold d).2.2.1,
    hfield _ .handle fun d => (htold d).2.2.2]

end Context

namespace ClientError
variable {e : ClientError} {source : NativeError}

lemma add_native (d : Detail) (source : NativeError) (c : Context) :
    d.add (.native source c) = .native source (c.or d.known) := by
  cases d <;> simp only [Detail.add, withSql, withBind, withRow, withHandle, mapContext, Detail.known, Context.or,
    Context.empty, Option.or_none]

/-- An error of the native library keeps what it knows, and gathers what it is told first. -/
lemma gather_native (ds : List Detail) (source : NativeError) (c : Context) :
    gather ds (.native source c) = .native source (c.or (.ofDetails ds)) := by
  induction ds generalizing c with
  | nil =>
    change ClientError.native source c = .native source (c.or .empty)
    rw [Context.or_empty]
  | cons d ds ih =>
    change gather ds (d.add (.native source c)) = _
    rw [add_native, ih, Context.ofDetails_cons, Context.or_assoc]

/-- A detail that is added to any other error is lost. -/
lemma add_of_ne_native (he : ∀ source c, e ≠ .native source c) (d : Detail) : d.add e = e := by
  cases e with
  | native source c => exact absurd rfl (he source c)
  | _ => cases d <;> rfl

lemma gather_of_ne_native (he : ∀ source c, e ≠ .native source c) (ds : List Detail) : gather ds e = e := by
  induction ds with
  | nil => rfl
  | cons d ds ih =>
    change gather ds (d.add e) = e
    rw [add_of_ne_native he, ih]

/-- How errors gather context. -/
structure GatheringLaw : Prop where
  /-- An error of the native library keeps its source. Each field of its context stays what it is if it is known, and
  else comes to be the first that it is told, if it is told anything. -/
  gathered : ∀ ds source c, gather ds (.native source c) = .native source
    { sql := c.sql.or (ds.findSome? fun d => d.known.sql), bind := c.bind.or (ds.findSome? fun d => d.known.bind)
      row := c.row.or (ds.findSome? fun d => d.known.row)
      handle := c.handle.or (ds.findSome? fun d => d.known.handle) }
  /-- Any other error stays as it is. -/
  kept : ∀ ds e, (∀ source c, e ≠ .native source c) → gather ds e = e
  /-- Details may change places as long as those for the same field do not. -/
  reordered : ∀ ds es e, (∀ field, (ds.filter fun d => d.field = field) = es.filter fun d => d.field = field) →
    gather ds e = gather es e

/-- All errors gather their context by the law. -/
theorem gatheringLaw : GatheringLaw where
  gathered ds source c := gather_native ds source c
  kept ds _ he := gather_of_ne_native he ds
  reordered ds es e h := by
    by_cases he : ∃ source c, e = .native source c
    · obtain ⟨source, c, rfl⟩ := he
      rw [gather_native, gather_native, Context.ofDetails_congr h]
    · have hne : ∀ source c, e ≠ .native source c := fun source c h => he ⟨source, c, h⟩
      rw [gather_of_ne_native hne, gather_of_ne_native hne]

example : gather [.bind ":a", .sql none, .bind ":b", .sql (some "q")] (.ofNative .noData) =
    .native .noData { Context.empty with sql := some "q", bind := some ":a" } := rfl

end ClientError
end DbClient
