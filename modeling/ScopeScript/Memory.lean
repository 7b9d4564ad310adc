import Std.Data.ExtTreeMap
import ScopeScript.Text.Escaped
import ScopeScript.Value.Basic

/-!
# Memory

Stores, handles and frames. A store binds names to values; a handle names a store; a frame is an
active scope and the handle of its store. Handles are shared freely: a write through one is seen
through every handle of the same store. `capture` makes the store of a new scope: the same
store, a copy that is independent from then on, or an empty one.
-/

namespace ScopeScript

abbrev Store := Std.ExtTreeMap String Value

namespace Store

/-- The bindings in the order of their names. -/
def bindings (s : Store) : List (String × Value) := s.toList

/-- The bound names on one line. Values are left out: a store can hold functions that refer to
it. -/
def summary (s : Store) : String :=
  let names := s.bindings.map fun b => String.ofList (Text.quoted b.1.toList)
  "Bindings([" ++ ", ".intercalate names ++ "])"

end Store

structure Frame where
  scope : ScopeId
  store : Handle
  deriving DecidableEq, Repr

/-- The stores, each at its handle, and the active frames, innermost first. -/
structure Memory where
  stores : Array Store := #[]
  frames : List Frame := []

namespace Memory

def store (m : Memory) (h : Handle) : Store := m.stores.getD h ∅

def read (m : Memory) (h : Handle) (name : String) : Option Value := (m.store h)[name]?

def write (m : Memory) (h : Handle) (name : String) (v : Value) : Memory :=
  { m with stores := m.stores.modify h (·.insert name v) }

def writeAll (m : Memory) (h : Handle) (bindings : List (String × Value)) : Memory :=
  bindings.foldl (fun m b => m.write h b.1 b.2) m

/-- Puts a store into memory under a handle of its own. -/
def alloc (m : Memory) (s : Store) : Handle × Memory :=
  (m.stores.size, { m with stores := m.stores.push s })

/-- The store of a new scope, made from the store of `source`. -/
def capture (m : Memory) (mode : Capture) (source : Option Handle) : Handle × Memory :=
  match mode, source with
  | .shared, some h => (h, m)
  | .copied, some h => m.alloc (m.store h)
  | _, _ => m.alloc ∅

def current? (m : Memory) : Option Frame := m.frames.head?

def global? (m : Memory) : Option Frame := m.frames.getLast?

def push (m : Memory) (f : Frame) : Memory := { m with frames := f :: m.frames }

def pop (m : Memory) : Memory := { m with frames := m.frames.tail }

/-- Drops all frames; the stores stay. -/
def clear (m : Memory) : Memory := { m with frames := [] }

@[simp] theorem size_write (m : Memory) (h : Handle) (name : String) (v : Value) :
    (m.write h name v).stores.size = m.stores.size := by
  simp [write]

/-- A write changes the store behind its handle and no other. -/
theorem store_write (m : Memory) {h : Handle} (hh : h < m.stores.size) (name : String)
    (v : Value) (h' : Handle) :
    (m.write h name v).store h' = if h = h' then (m.store h).insert name v else m.store h' := by
  simp only [store, write, Array.getD_eq_getD_getElem?, Array.getElem?_modify]
  by_cases e : h = h'
  · subst e
    simp [hh]
  · simp [e]

theorem read_write (m : Memory) {h : Handle} (hh : h < m.stores.size) (name : String) (v : Value)
    (h' : Handle) (name' : String) :
    (m.write h name v).read h' name' =
      if h = h' ∧ name = name' then some v else m.read h' name' := by
  simp only [read, store_write m hh]
  by_cases e : h = h'
  · subst e
    simp [Std.ExtTreeMap.getElem?_insert]
  · simp [e]

/-- A new store is behind its handle. -/
@[simp] theorem store_alloc_self (m : Memory) (s : Store) :
    (m.alloc s).2.store (m.alloc s).1 = s := by
  simp [store, alloc, Array.getD_eq_getD_getElem?]

/-- A new store leaves the others as they are. -/
theorem store_alloc_of_lt (m : Memory) (s : Store) {h : Handle} (hh : h < m.stores.size) :
    (m.alloc s).2.store h = m.store h := by
  simp [store, alloc, Array.getD_eq_getD_getElem?, Array.getElem?_push_lt hh, hh]

end Memory

end ScopeScript
