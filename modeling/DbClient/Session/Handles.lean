import DbClient.Session.Reply

/-! Commands for objects of any kind: copying, dropping, comparing them, extra information kept with
their handles, and the handles below them. -/
namespace DbClient

inductive HandleCommand where
  | clone (name copy : String)
  | drop (name : String)
  /-- Releases a bare handle and keeps its name. -/
  | release (name : String)
  | report (name : String)
  | text (name : String)
  | same (name other : String)
  | setExtra (name : String) (e : Extra)
  | getExtra (name : String) (ty : ExtraType)
  /-- Adds to a number kept with a handle. -/
  | addExtra (name : String) (n : Int)
  | takeExtra (name : String) (ty : ExtraType)
  /-- Finds the first child of a kind with a greater address than the given one. -/
  | findChild (name : String) (kind : HandleKind) (after : Nat) (found : String)
  /-- Releases the children of a kind, or all of them. -/
  | releaseChildren (name : String) (kind : Option HandleKind)

namespace Extra

def reply : Extra → Reply
  | number n => .integer n
  | text s => .text s
  | statement _ => .nothing

end Extra

namespace HandleCommand

def reportOf (i : Item) (w : World) : HandleReport :=
  let h := i.wrapper
  { address := h.native w, kind := h.kind w, isNull := h.isNull w, owned := h.isOwned w,
    holders := h.holders w, parent := h.parentNative w, children := h.childrenCount w,
    isHolder := i.isHolder }

def run : HandleCommand → Turn Reply
  | clone name copy => do
    let i ← Turn.item name
    Reply.ofNewItem copy (← Turn.step i.clone)
  | drop name => do
    Turn.forget name
    pure .nothing
  | release name => do
    let h ← Turn.wrapper name
    Turn.update h.drop
    Turn.replace name (.handle ⟨none⟩)
    pure .nothing
  | report name => do
    let i ← Turn.item name
    return .handleReport (reportOf i (← Turn.world))
  | text name => do
    let i ← Turn.item name
    return .text (i.text (← Turn.world))
  | same name other => do return .flag ((← Turn.wrapper name) = (← Turn.wrapper other))
  | setExtra name e => do
    let h ← Turn.wrapper name
    Turn.ofAct (h.setExtra e)
    pure .nothing
  | getExtra name ty => do
    let h ← Turn.wrapper name
    return .ofOption Extra.reply ((h.extra? (← Turn.world)).filter fun e => e.hasType ty)
  | addExtra name n => do
    let h ← Turn.wrapper name
    match h.extra? (← Turn.world) with
    | some (.number m) =>
      Turn.ofAct (h.setExtra (.number (m + n)))
      pure (.integer (m + n))
    | _ => pure .nothing
  | takeExtra name ty => do
    let h ← Turn.wrapper name
    return .ofOption Extra.reply (← Turn.step (h.takeExtra ty))
  | findChild name kind after found => do
    let h ← Turn.wrapper name
    match ← Turn.step (h.findChild fun n => n.kind = kind && after < n.native.number) with
    | some child => Reply.ofNewItem found (.handle child)
    | none => pure .nothing
  | releaseChildren name kind => do
    let h ← Turn.wrapper name
    return .count (← Turn.step (h.releaseChildren fun n => kind.all fun k => n.kind = k))

end HandleCommand
end DbClient
