import LogicLess.Path
import LogicLess.Value

/-!
# Contexts

A context is the chain of values that a tag can refer to: the data at the root, and on top of it the
values of the sections that are being run. Keys are looked up from the innermost value outwards, and
a value that counts as absent is passed over.
-/

namespace LogicLess

/-- The values that paths are looked up in. -/
structure Context where
  /-- The value that the run began with. -/
  root : Value
  /-- The values on top of the root, innermost first. -/
  inner : List Value

namespace Context

def ofRoot (root : Value) : Context := ⟨root, []⟩

def push (c : Context) (v : Value) : Context := { c with inner := v :: c.inner }

/-- All values, innermost first. -/
def frames (c : Context) : List Value := c.inner ++ [c.root]

def current (c : Context) : Value := c.inner.head?.getD c.root

/-- The value that a chain of keys leads to. No key leads on from an absent value. -/
def resolve (v : Value) (keys : List String) : Option Value :=
  keys.foldlM (fun v key => if v.isTruthy then v.get? key else none) v

/-- The value of a path. A dot is the innermost value, whatever it is; keys give the first value
that is not absent. -/
def lookup (c : Context) : Path → Option Value
  | .current => some c.current
  | .keys names => c.frames.findSome? fun v => (resolve v names).filter Value.isTruthy

@[simp] theorem frames_push (c : Context) (v : Value) : (c.push v).frames = v :: c.frames := rfl

end Context

end LogicLess
