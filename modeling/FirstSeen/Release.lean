import FirstSeen.Iteration

/-!
# Release

An object is released as soon as nothing refers to it any more. For most objects nothing follows; a
generator that is released while its body is suspended is closed, which its source counts, and a fault
from closing it is lost.

Objects on a circle always have something that refers to them. They are never released, nor is what they
refer to.
-/

set_option autoImplicit false

namespace FirstSeen

namespace Feed

/-- A feed as a reference. -/
def ref : Feed → Ref
  | cursor id => .cursor id
  | sequence id => .sequence id

end Feed

/-- What a stream refers to in a phase. -/
def StreamPhase.refs : StreamPhase → List Ref
  | .delegating feed => [feed.ref]
  | .fresh | .running | .finished => []

/-- What an iterator refers to. Scripts hold nothing that can be released, and an iterator that is over
refers to nothing any more. -/
def Cursor.refs : Cursor → List Ref
  | .walking .. | .ranging .. | .generating .. => []
  | .listing list _ ended => if ended then [] else [.list list]
  | .streaming _ _ .finished => []
  | .streaming pipeline input phase => .sequence pipeline :: input.refs ++ phase.refs

/-- What the product of a source refers to. -/
def Product.refs : Product → List Ref
  | .value v => v.refs
  | .items all => Value.refsIn all
  | .shared cursor => [.cursor cursor]
  | .generator .. | .walker .. => []

/-- What a step refers to. -/
def Step.refs : Step → List Ref
  | .distinct key limit => key.refs ++ limit.refs
  | .returning v => v.refs
  | .passing | .positional | .failing _ | .bare _ | .link => []

/-- What the body of a sequence refers to. -/
def Body.refs : Body → List Ref
  | .abstract => []
  | .iterable data feed => data.refs ++ feed.toList.map Feed.ref
  | .produced factory size feed => factory.refs ++ size.refs ++ feed.toList.map Feed.ref
  | .distinct supply key limit seen =>
    .sequence supply :: key.refs ++ limit.refs ++ Value.refsIn seen.hashed ++ Value.refsIn seen.listed
  | .pipeline steps input output => .list steps :: input.refs ++ output.refs
  | .scripted cursor => [.cursor cursor]

namespace Store

/-- What an object refers to. -/
def refsOf (store : Store) : Ref → List Ref
  | .sequence id =>
    let state := store.sequence id
    state.body.refs ++ (state.peeked.map Value.refs).getD []
  | .cursor id => (store.cursor id).refs
  | .datum id => (store.datum id).refs
  | .list id => Value.refsIn (store.list id)
  | .source id => ((store.source id).product.map Product.refs).getD []
  | .key id => (store.key id).history.toList.flatMap Value.refsIn
  | .step id => (store.step id).refs
  | .fault id =>
    let object := store.faultObject id
    Value.refsIn object.arguments ++ object.sequenceName.refs ++ object.reason.refs

/-- Whether an object may refer to others. -/
def isHolder (store : Store) : Ref → Bool
  | .datum id => !(store.datum id).refs.isEmpty
  | _ => true

/-- What an object refers to, as far as it may refer to others in turn. -/
def holdersOf (store : Store) (ref : Ref) : List Ref := (store.refsOf ref).filter store.isHolder

/-- All objects that may refer to others. -/
def holders (store : Store) : List Ref :=
  let data := (List.range store.data.size).map fun i => Ref.datum ⟨i⟩
  (List.range store.sequences.size).map (fun i => .sequence ⟨i⟩)
    ++ (List.range store.cursors.size).map (fun i => .cursor ⟨i⟩)
    ++ (List.range store.lists.size).map (fun i => .list ⟨i⟩)
    ++ (List.range store.sources.size).map (fun i => .source ⟨i⟩)
    ++ (List.range store.keys.size).map (fun i => .key ⟨i⟩)
    ++ (List.range store.steps.size).map (fun i => .step ⟨i⟩)
    ++ (List.range store.faults.size).map (fun i => .fault ⟨i⟩)
    ++ data.filter store.isHolder

end Store

/-- The objects of a domain that a frontier has. -/
def metBy (frontier domain : List Ref) : List Ref := domain.filter fun ref => frontier.contains ref

/-- The objects of a domain that a frontier leaves. -/
def leftBy (frontier domain : List Ref) : List Ref := domain.filter fun ref => !frontier.contains ref

/-- A frontier that has something of a domain leaves less than all of it. -/
theorem length_leftBy_lt {frontier domain : List Ref} {ref : Ref} (met : ref ∈ metBy frontier domain) :
    (leftBy frontier domain).length < domain.length := by
  obtain ⟨inside, found⟩ := List.mem_filter.mp met
  exact List.length_filter_lt_length_iff_exists.mpr ⟨ref, inside, by simpa using found⟩

/-- The objects of a finite domain that can be reached from a frontier, nearest first. Each round takes
what the frontier has out of the domain, and goes on with what that refers to. -/
def reachable (next : Ref → List Ref) (domain frontier : List Ref) : List Ref :=
  match _met : metBy frontier domain with
  | [] => []
  | first :: others =>
    let found := first :: others
    found ++ reachable next (leftBy frontier domain) (found.flatMap next)
termination_by domain.length
decreasing_by exact length_leftBy_lt (_met ▸ List.mem_cons_self)

namespace Store

/-- Whether an iterator is a generator whose body is suspended and told when it is closed. -/
def isOpenGenerator : Cursor → Bool
  | .generating _ _ .suspended _ (.counted _) => true
  | _ => false

/-- Closes a generator that is released. -/
def closeReleased (store : Store) (id : CursorId) : Store :=
  ((Run.onFault (Run.closeCursor id) fun _ => pure ()).from? store).2

/-- The open generators. -/
def openGenerators (store : Store) : List CursorId :=
  ((List.range store.cursors.size).map CursorId.mk).filter fun id => isOpenGenerator (store.cursor id)

/-- The objects of a domain that lie on a circle within it, and what these refer to. -/
def circular (store : Store) (domain : List Ref) : List Ref :=
  let next := store.holdersOf
  reachable next domain (domain.filter fun ref => (reachable next domain (next ref)).contains ref)

/-- Releases what cannot be reached from these values and is kept by no circle. -/
def release (store : Store) (roots : List Value) : Store :=
  match store.openGenerators with
  | [] => store
  | opened =>
    let holders := store.holders
    let reached := reachable store.holdersOf holders ((Value.refsIn roots).filter store.isHolder)
    match opened.filter fun id => !reached.contains (.cursor id) with
    | [] => store
    | lost =>
      let kept := store.circular (holders.filter fun ref => !reached.contains ref)
      (lost.filter fun id => !kept.contains (.cursor id)).foldl closeReleased store

end Store

end FirstSeen
