import CryptoTrader.Lib.Doubles
import CryptoTrader.Lib.Json
import Mathlib.Data.List.Infix

/-!
# Values of a dynamic language

What a JSON text is read as, with the operations on it that raise for some of the types: the items
of a value, `in`, and `float`. A text and a number are different values here, and a float may be
infinite or not a number.
-/

inductive PyFloat where
  | finite (q : ℚ)
  | infinite (negative : Bool)
  | nan
  deriving DecidableEq, Repr

/-- `x > y`, false if one of them is not a number. -/
def PyFloat.gt : PyFloat → PyFloat → Bool
  | finite x, finite y => y < x
  | infinite negative, finite _ => !negative
  | finite _, infinite negative => negative
  | infinite x, infinite y => !x && y
  | _, _ => false

/-- `max(…, key=…)`: the first of the elements with the greatest key. -/
def firstMax {α : Type} : List (PyFloat × α) → Option (PyFloat × α)
  | [] => none
  | x :: xs => some (xs.foldl (fun best y => if y.1.gt best.1 then y else best) x)

inductive PyValue where
  | none
  | bool (b : Bool)
  | int (n : ℤ)
  | float (x : PyFloat)
  | str (s : String)
  | list (items : List PyValue)
  | dict (entries : List (String × PyValue))

inductive PyError where
  | typeError
  | attributeError
  | keyError
  | valueError
  | overflowError
  | validationError
  deriving DecidableEq, Repr

namespace PyValue

def truthy : PyValue → Bool
  | none => false
  | bool b => b
  | int n => n ≠ 0
  | float x => x ≠ .finite 0
  | str s => s ≠ ""
  | list l => !l.isEmpty
  | dict d => !d.isEmpty

def isStr : PyValue → Bool
  | str _ => true
  | _ => false

/-- `v == s`. -/
def isText (s : String) : PyValue → Bool
  | str t => t = s
  | _ => false

/-- `list(v)`. -/
def items : PyValue → Except PyError (List PyValue)
  | list l => .ok l
  | dict d => .ok (d.map (fun e => str e.1))
  | str s => .ok (s.toList.map (fun c => str (String.ofList [c])))
  | _ => .error .typeError

/-- `s in v`. -/
def contains (s : String) : PyValue → Except PyError Bool
  | list l => .ok (l.any (isText s))
  | dict d => .ok (s ∈ d.map Prod.fst)
  | str t => .ok (s.toList <:+: t.toList)
  | _ => .error .typeError

/-- `v.get`. -/
def fields : PyValue → Except PyError (Dict String PyValue)
  | dict d => .ok d
  | _ => .error .attributeError

/-- `float(n)`. -/
def floatOfInt (n : ℤ) : Option PyFloat :=
  -- an integer that is rounded to 2 ^ 1024 does not fit
  if n.natAbs < 2 ^ 1024 - 2 ^ 970 then some (.finite (Doubles.round n)) else Option.none

/-- `float(v)`, where `numeral` reads the texts. -/
def toFloat (numeral : String → Option PyFloat) : PyValue → Except PyError PyFloat
  | bool b => .ok (.finite (if b then 1 else 0))
  | int n => (floatOfInt n).elim (.error .overflowError) .ok
  | float x => .ok x
  | str s => (numeral s).elim (.error .valueError) .ok
  | _ => .error .typeError

end PyValue

/-- `d.setdefault(k, v)`. -/
def Dict.setDefault {α : Type} (k : String) (v : α) (d : Dict String α) : Dict String α :=
  Dict.alter k (fun o => o.getD v) d

namespace Dict

variable {α : Type}

lemma get_setDefault_self (k : String) (v : α) (d : Dict String α) : get k (setDefault k v d) = some ((get k d).getD v) :=
  get_alter_self k _ d

lemma get_setDefault_of_ne {k k' : String} (h : k' ≠ k) (v : α) (d : Dict String α) :
    get k' (setDefault k v d) = get k' d :=
  get_alter_of_ne h _ d

end Dict
