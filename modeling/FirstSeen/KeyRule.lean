import FirstSeen.Seen

/-!
# Key rules

Key functions written as expressions over their arguments. A rule takes any number of arguments and
gives a value or a fault. Two of its forms depend on earlier calls: one fails on chosen calls, the
other fails at most so many times. All else is a function of the arguments.

Values that a rule makes, rather than passes on, are new objects in each call; `renewed` gives their
NaNs and probes the identity of that call.
-/

set_option autoImplicit false

namespace FirstSeen

/-- An operation on an integer. -/
inductive IntegerOperation where
  | modulo
  | quotient
deriving DecidableEq

/-- An operation on a number. The site names the NaNs that it makes. -/
inductive NumberOperation where
  | magnitude (site : Nat)
  | negation (site : Nat)
  | positive
deriving DecidableEq

/-- A key function as an expression over its arguments. -/
inductive KeyRule where
  /-- The only argument. -/
  | identity
  /-- All arguments as a tuple. -/
  | arguments
  /-- All arguments as a list. -/
  | argumentList
  | argument (i : Int)
  /-- A value, made anew in each call. -/
  | constant (v : Value)
  | tuple (rules : List KeyRule)
  | list (rules : List KeyRule)
  /-- Fails unless it is given so many arguments. -/
  | arity (n : Nat) (rule : KeyRule)
  /-- Fails while the first rule gives this value, as often as the budget allows; the site tells
  apart the budgets of one rule. -/
  | failIf (site : Nat) (tested : KeyRule) (value : Value) (fault : Fault) (budget : Option Nat)
      (rule : KeyRule)
  /-- Fails on these calls, counted from one. -/
  | failAt (calls : List Nat) (fault : Fault) (rule : KeyRule)
  | integer (operation : IntegerOperation) (rule : KeyRule) (n : Int)
  | item (rule : KeyRule) (i : Int)
  /-- The entry of a dictionary under this key, if there is one. -/
  | entry (rule : KeyRule) (key : Value)
  | number (operation : NumberOperation) (rule : KeyRule)
  | length (rule : KeyRule)
  | lowercase (rule : KeyRule)
  | typeName (rule : KeyRule)
deriving Inhabited

namespace Value

mutual

/-- The value as a new object of a call. -/
def renewed (call : Nat) : Value → Value
  | nan identity => nan { identity with call := call }
  | probe p => probe { p with identity := { p.identity with call := call } }
  | list items => list (renewedItems call items)
  | tuple items => tuple (renewedItems call items)
  | dict entries => dict (renewedEntries call entries)
  | set members => set (renewedItems call members)
  | frozenset members => frozenset (renewedItems call members)
  | v => v

/-- The values as new objects of a call. -/
def renewedItems (call : Nat) : List Value → List Value
  | [] => []
  | item :: rest => renewed call item :: renewedItems call rest

/-- The entries as new objects of a call. -/
def renewedEntries (call : Nat) : List (Value × Value) → List (Value × Value)
  | [] => []
  | (k, v) :: rest => (renewed call k, renewed call v) :: renewedEntries call rest

end

/-- The item of a list at an index, counted from the end if negative. -/
def itemAt? {α : Type} (items : List α) (i : Int) : Option α :=
  if 0 ≤ i then items[i.toNat]?
  else if -(items.length : Int) ≤ i then items[(items.length + i).toNat]? else none

end Value

namespace KeyRule

/-- What a rule is evaluated in: the sites at which a budgeted fault was raised so far, once for each
time. It outlives a fault. -/
abbrev Eval (α : Type) := ExceptT Fault (StateM (List Nat)) α

/-- Gives the result of a computation that may fail. -/
def lift {α : Type} : Except Fault α → Eval α
  | .ok a => pure a
  | .error fault => throw fault

/-- Remainder and quotient are those of division towards the floor. -/
def applyInteger (operation : IntegerOperation) (n : Int) (v : Value) (typeName : String) :
    Except Fault Value :=
  let name := match operation with
    | .modulo => "mod"
    | .quotient => "floordiv"
  match v.integer? with
  | none => .error (.unsupportedOperand name typeName)
  | some a =>
    if n = 0 then .error .divisionByZero
    else .ok (.int (match operation with
      | .modulo => a.fmod n
      | .quotient => a.fdiv n))

/-- Magnitude, negation and the test for a positive number. Booleans count as integers. -/
def applyNumber (call : Nat) (operation : NumberOperation) (v : Value) (typeName : String) :
    Except Fault Value :=
  match operation, v with
  | .magnitude _, .float x => .ok (.float x.abs)
  | .negation _, .float x => .ok (.float x.neg)
  | .positive, .float x => .ok (.bool x.isPositive)
  | .magnitude site, .nan _ | .negation site, .nan _ => .ok (.nan ⟨site, call⟩)
  | .positive, .nan _ => .ok (.bool false)
  | _, _ =>
    match v.integer?, operation with
    | some a, .magnitude _ => .ok (.int a.natAbs)
    | some a, .negation _ => .ok (.int (-a))
    | some a, .positive => .ok (.bool (0 < a))
    | none, .magnitude _ => .error (.unsupportedOperand "abs" typeName)
    | none, .negation _ => .error (.unsupportedOperand "neg" typeName)
    | none, .positive => .error (.unsupportedOperand "sign" typeName)

/-- An item of a text, a list or a tuple. -/
def applyItem (i : Int) (v : Value) (typeName : String) : Except Fault Value :=
  let pick (items : List Value) : Except Fault Value :=
    match Value.itemAt? items i with
    | some v => .ok v
    | none => .error .itemMissing
  match v with
  | .str text => pick (Value.characters text)
  | .list items | .tuple items => pick items
  | _ => .error (.unsupportedOperand "item" typeName)

/-- The value under a key of a dictionary, or nothing. -/
def applyEntry (key : Value) (v : Value) (typeName : String) : Except Fault Value :=
  match v with
  | .dict entries =>
    match key.hashFault? with
    | some fault => .error fault
    | none => do
      let found ← Value.searchFirst
        (fun entry => Value.ifSameHash entry.1 key fun _ => Value.matchesStored entry.1 key) entries
      return (found.map Prod.snd).getD .null
  | _ => .error (.unsupportedOperand "get" typeName)

/-- How many characters, bytes, items or entries a value has. -/
def applyLength (v : Value) (typeName : String) : Except Fault Value :=
  match v with
  | .str _ | .bytes _ | .bytearray _ | .list _ | .tuple _ | .dict _ | .set _ =>
    .ok (.ofNat (v.length?.getD 0))
  | _ => .error (.unsupportedOperand "len" typeName)

/-- The text with the letters A to Z, and no others, in lower case. -/
def lowered (text : String) : String := text.map Char.toLower

/-- The text in lower case. -/
def applyLowercase (v : Value) (typeName : String) : Except Fault Value :=
  match v with
  | .str text => .ok (.str (lowered text))
  | _ => .error (.unsupportedOperand "lower" typeName)

mutual

/-- Whether a rule holds a fault with a budget, so that its value depends on what earlier calls
did. -/
def isBudgeted : KeyRule → Bool
  | failIf _ tested _ _ budget rule => budget.isSome || isBudgeted tested || isBudgeted rule
  | tuple rules | list rules => anyBudgeted rules
  | arity _ rule | failAt _ _ rule | integer _ rule _ | item rule _ | entry rule _
  | number _ rule | length rule | lowercase rule | typeName rule => isBudgeted rule
  | identity | arguments | argumentList | argument _ | constant _ => false

/-- Whether one of the rules holds a fault with a budget. -/
def anyBudgeted : List KeyRule → Bool
  | [] => false
  | rule :: rest => isBudgeted rule || anyBudgeted rest

end

mutual

/-- The value of a rule in its `call`-th call, counted from one, for these arguments. Types are
named by `nameOf`. -/
def eval (nameOf : Value → String) (call : Nat) (args : List Value) : KeyRule → Eval Value
  | identity =>
    match args with
    | [v] => pure v
    | _ => throw (.keyArity 1 args.length)
  | arguments => pure (.tuple args)
  | argumentList => pure (.list args)
  | argument i =>
    match Value.itemAt? args i with
    | some v => pure v
    | none => throw .keyArgumentMissing
  | constant v => pure (v.renewed call)
  | tuple rules => do return .tuple (← evalAll nameOf call args rules)
  | list rules => do return .list (← evalAll nameOf call args rules)
  | arity n rule =>
    if args.length = n then eval nameOf call args rule else throw (.keyArity n args.length)
  | failIf site tested value fault budget rule => do
    let v ← eval nameOf call args tested
    let hit ← lift (Value.equals v value)
    let spent := (← get).count site
    if hit && budget.all (fun n => spent < n) then
      modify (site :: ·)
      throw fault
    eval nameOf call args rule
  | failAt calls fault rule =>
    if calls.contains call then throw fault else eval nameOf call args rule
  | integer operation rule n => do
    let v ← eval nameOf call args rule
    lift (applyInteger operation n v (nameOf v))
  | item rule i => do
    let v ← eval nameOf call args rule
    lift (applyItem i v (nameOf v))
  | entry rule key => do
    let v ← eval nameOf call args rule
    lift (applyEntry key v (nameOf v))
  | number operation rule => do
    let v ← eval nameOf call args rule
    lift (applyNumber call operation v (nameOf v))
  | length rule => do
    let v ← eval nameOf call args rule
    lift (applyLength v (nameOf v))
  | lowercase rule => do
    let v ← eval nameOf call args rule
    lift (applyLowercase v (nameOf v))
  | typeName rule => do
    let v ← eval nameOf call args rule
    return .str (nameOf v)

/-- The values of several rules, from left to right. -/
def evalAll (nameOf : Value → String) (call : Nat) (args : List Value) :
    List KeyRule → Eval (List Value)
  | [] => pure []
  | rule :: rest => do
    let v ← eval nameOf call args rule
    let vs ← evalAll nameOf call args rest
    return v :: vs

end

/-- The sites at which earlier calls with these arguments raised a budgeted fault. -/
def spentBy (nameOf : Value → String) (rule : KeyRule) (earlier : Array (List Value)) : List Nat :=
  (earlier.foldl
    (fun (call, spent) args => (call + 1, ((eval nameOf call args rule).run.run spent).2))
    (1, ([] : List Nat))).2

/-- The key function of a rule, given the arguments of its earlier calls. -/
def respond (rule : KeyRule) (nameOf : Value → String) (earlier : Array (List Value))
    (args : List Value) : Except Fault Value :=
  let spent := if rule.isBudgeted then rule.spentBy nameOf earlier else []
  ((eval nameOf (earlier.size + 1) args rule).run.run spent).1

end KeyRule

end FirstSeen
