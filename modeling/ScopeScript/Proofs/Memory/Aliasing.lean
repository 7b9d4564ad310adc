import Mathlib.Data.List.Forall2
import Mathlib.Logic.Relation
import ScopeScript.Proofs.Machine.Stores

/-!
# Which handles share a store

A ledger is a memory with a client: the handles that the client has obtained, numbered in order, the
numbers of those that the frames hold, and a record of which handle was taken as another handle of
the same store. `Action` lists what a client can do, and `Action.origin?` says how the handle that
an action obtains comes to be: as another handle of a store, or with a store of its own.

`Ledger.Sound` is kept by every action (`Sound.step`), so after any actions two handles denote one
store just when the record connects them. What is read through a handle changes only by a write
through a handle of the same store (`Sound.get_step_set`, `Sound.get_step`, `Sound.get_runFrom`).
-/

namespace ScopeScript

/-- A memory, the handles obtained from it by number, the numbers of those that its frames hold
(innermost first), and the pairs of which the second was taken as another handle of the store of the
first. -/
structure Ledger where
  memory : Memory := {}
  handles : List Handle := []
  active : List Nat := []
  links : List (Nat × Nat) := []

/-- How a handle comes to be: as another handle of a store, with a store that starts as a copy, or
with an empty one. -/
inductive Origin where
  | share (i : Nat)
  | copy (i : Nat)
  | empty
  deriving DecidableEq, Repr

/-- The origin of a captured handle. -/
def Origin.ofCapture : Capture → Option Nat → Origin
  | .shared, some i => .share i
  | .copied, some i => .copy i
  | _, _ => .empty

/-- What a client of memory can do: enter a scope with a store captured from that of the innermost
frame, leave one, drop all frames, take the handle of the innermost or outermost frame, take another
handle of a store, copy a store, capture one explicitly, bind a name and read one. Handles are given
by number. -/
inductive Action where
  | push (scope : ScopeId) (mode : Capture)
  | pop
  | clear
  | current
  | global
  | clone (i : Nat)
  | snapshot (i : Nat)
  | capture (mode : Capture) (source : Option Nat)
  | set (i : Nat) (name : String) (v : Value)
  | get (i : Nat) (name : String)

namespace Ledger

/-- The number of handles obtained so far, which is the number of the next one. -/
def count (l : Ledger) : Nat := l.handles.length

/-- The store that the handle of a number denotes. -/
def handle? (l : Ledger) (i : Nat) : Option Handle := l.handles[i]?

def get (l : Ledger) (i : Nat) (name : String) : Option Value :=
  (l.handle? i).bind (l.memory.read · name)

/-- A chain of handles taken from each other leads from one to the other. -/
def Connected (l : Ledger) : Nat → Nat → Prop := Relation.EqvGen fun i j => (i, j) ∈ l.links

end Ledger

namespace Action

/-- The memory after an action, and the handle that it obtains, if any. -/
def perform (l : Ledger) : Action → Memory × Option Handle
  | .push scope mode =>
    let (h, memory) := l.memory.capture mode (l.memory.current?.map (·.store))
    (memory.push ⟨scope, h⟩, some h)
  | .pop => (l.memory.pop, none)
  | .clear => (l.memory.clear, none)
  | .current => (l.memory, l.memory.current?.map (·.store))
  | .global => (l.memory, l.memory.global?.map (·.store))
  | .clone i => (l.memory, l.handle? i)
  | .snapshot i =>
    match l.handle? i with
    | none => (l.memory, none)
    | some h =>
      let (h', memory) := l.memory.capture .copied (some h)
      (memory, some h')
  | .capture mode source =>
    let (h, memory) := l.memory.capture mode (source.bind l.handle?)
    (memory, some h)
  | .set i name v =>
    match l.handle? i with
    | none => (l.memory, none)
    | some h => (l.memory.write h name v, none)
  | .get _ _ => (l.memory, none)

def origin? (l : Ledger) : Action → Option Origin
  | .push _ mode => some (.ofCapture mode l.active.head?)
  | .current => l.active.head?.map .share
  | .global => l.active.getLast?.map .share
  | .clone i => if i < l.count then some (.share i) else none
  | .snapshot i => if i < l.count then some (.copy i) else none
  | .capture mode source => some (.ofCapture mode (source.filter (· < l.count)))
  | .pop | .clear | .set .. | .get .. => none

/-- The numbers of the handles that the frames hold after an action. -/
def active (l : Ledger) : Action → List Nat
  | .push .. => l.count :: l.active
  | .pop => l.active.tail
  | .clear => []
  | _ => l.active

end Action

namespace Ledger

/-- The pair to record for a new handle, if it is another handle of a store. -/
def link? (l : Ledger) : Option Origin → Option (Nat × Nat)
  | some (.share i) => some (i, l.count)
  | _ => none

def step (l : Ledger) (a : Action) : Ledger where
  memory := (a.perform l).1
  handles := l.handles ++ (a.perform l).2.toList
  active := a.active l
  links := l.links ++ (l.link? (a.origin? l)).toList

def runFrom (l : Ledger) (as : List Action) : Ledger := as.foldl step l

def run (as : List Action) : Ledger := runFrom {} as

/-! ## The invariant -/

variable {l : Ledger} {i j : Nat} {h : Handle}

/-- Handles denote stores that exist, the frames hold the handles of the active numbers, and two
handles denote one store just when the record connects them. -/
structure Sound (l : Ledger) : Prop where
  inside : ∀ {i h}, l.handle? i = some h → h < l.memory.stores.size
  frames : List.Forall₂ (fun f i => l.handle? i = some f.store) l.memory.frames l.active
  linked : ∀ {i j}, (i, j) ∈ l.links → ∃ h, l.handle? i = some h ∧ l.handle? j = some h
  joined : ∀ {i j h}, l.handle? i = some h → l.handle? j = some h → l.Connected i j

theorem handle?_eq_none : l.handle? i = none ↔ l.count ≤ i := List.getElem?_eq_none_iff

theorem lt_count (hi : l.handle? i = some h) : i < l.count := (List.getElem?_eq_some_iff.1 hi).1

theorem exists_handle (hi : i < l.count) : ∃ h, l.handle? i = some h :=
  ⟨_, List.getElem?_eq_getElem hi⟩

theorem sound_init : Sound {} := by
  constructor
  · intro i h hi
    simp [handle?] at hi
  · exact .nil
  · intro i j hij
    simp at hij
  · intro i j h hi
    simp [handle?] at hi

namespace Sound

variable (hl : l.Sound)
include hl

theorem handle?_eq_of_connected (hij : l.Connected i j) : l.handle? i = l.handle? j := by
  induction hij with
  | rel _ _ hlink =>
    obtain ⟨h, hi, hj⟩ := hl.linked hlink
    rw [hi, hj]
  | refl _ => rfl
  | symm _ _ _ ih => exact ih.symm
  | trans _ _ _ _ _ ih ih' => exact ih.trans ih'

theorem handle?_eq_iff (hi : i < l.count) : l.handle? i = l.handle? j ↔ l.Connected i j := by
  refine ⟨fun hij => ?_, hl.handle?_eq_of_connected⟩
  obtain ⟨h, hh⟩ := exists_handle hi
  exact hl.joined hh (hij ▸ hh)

theorem head_active : l.memory.current?.map (·.store) = l.active.head?.bind l.handle? := by
  have hf := hl.frames
  unfold Memory.current?
  generalize l.memory.frames = fs at hf ⊢
  generalize l.active = numbers at hf ⊢
  cases hf with
  | nil => rfl
  | cons hd _ => exact hd.symm

theorem last_active : l.memory.global?.map (·.store) = l.active.getLast?.bind l.handle? := by
  have hf := hl.frames
  unfold Memory.global?
  generalize l.memory.frames = fs at hf ⊢
  generalize l.active = numbers at hf ⊢
  induction hf with
  | nil => rfl
  | cons hd htl ih =>
    cases htl with
    | nil => exact hd.symm
    | cons _ _ =>
      rw [List.getLast?_cons_cons, List.getLast?_cons_cons]
      exact ih

theorem exists_of_active (hi : i ∈ l.active) : ∃ h, l.handle? i = some h := by
  have hf := hl.frames
  generalize l.memory.frames = fs at hf
  generalize l.active = numbers at hf hi
  induction hf with
  | nil => cases hi
  | cons hd _ ih =>
    rcases List.mem_cons.1 hi with rfl | hi
    · exact ⟨_, hd⟩
    · exact ih hi

end Sound

/-! ## What an action does to the stores -/

/-- What an action may leave in the stores, and the handle that it obtains, by the origin of that
handle. -/
inductive Effect (l : Ledger) (m : Memory) : Action → Option Origin → Option Handle → Prop where
  | share {a : Action} {i : Nat} {h : Handle} : l.handle? i = some h →
      m.stores = l.memory.stores → Effect l m a (some (.share i)) (some h)
  | copy {a : Action} {i : Nat} {h : Handle} : l.handle? i = some h →
      m.stores = (l.memory.alloc (l.memory.store h)).2.stores →
      Effect l m a (some (.copy i)) (some l.memory.stores.size)
  | empty {a : Action} : m.stores = (l.memory.alloc ∅).2.stores →
      Effect l m a (some .empty) (some l.memory.stores.size)
  | write {i : Nat} {h : Handle} (name : String) (v : Value) : l.handle? i = some h →
      m.stores = (l.memory.write h name v).stores → Effect l m (.set i name v) none none
  | none {a : Action} : m.stores = l.memory.stores → Effect l m a none none

/-- A captured handle comes to be as the mode and the source say. -/
theorem effect_capture (l : Ledger) {m : Memory} {a : Action} (mode : Capture)
    {source : Option Nat} (hsource : ∀ i ∈ source, ∃ h, l.handle? i = some h)
    (hm : m.stores = (l.memory.capture mode (source.bind l.handle?)).2.stores) :
    Effect l m a (some (.ofCapture mode source))
      (some (l.memory.capture mode (source.bind l.handle?)).1) := by
  cases source with
  | none => cases mode <;> exact .empty hm
  | some i =>
    obtain ⟨h, hh⟩ := hsource i rfl
    rw [Option.bind_some, hh] at hm ⊢
    cases mode with
    | shared => exact .share hh hm
    | copied => exact .copy hh hm
    | fresh => exact .empty hm

/-- Another handle is taken of a store, if there is the handle it is taken from. -/
theorem effect_take (l : Ledger) {a : Action} {number : Option Nat}
    (hn : ∀ i ∈ number, ∃ h, l.handle? i = some h) :
    Effect l l.memory a (number.map .share) (number.bind l.handle?) := by
  cases number with
  | none => exact .none rfl
  | some i =>
    obtain ⟨h, hh⟩ := hn i rfl
    rw [Option.bind_some, hh]
    exact .share hh rfl

/-- A number that is looked up may be left out if it is that of no handle. -/
theorem filter_bind_handle? (l : Ledger) (number : Option Nat) :
    (number.filter (· < l.count)).bind l.handle? = number.bind l.handle? := by
  cases number with
  | none => rfl
  | some i =>
    by_cases hi : i < l.count
    · simp [Option.filter, hi]
    · simp [Option.filter, hi, handle?_eq_none.2 (Nat.not_lt.1 hi)]

theorem exists_of_mem_filter (number : Option Nat) (i : Nat)
    (hi : i ∈ number.filter (· < l.count)) : ∃ h, l.handle? i = some h := by
  obtain ⟨-, hlt⟩ := Option.mem_filter_iff.1 hi
  exact exists_handle (of_decide_eq_true hlt)

theorem Sound.effect (hl : l.Sound) (a : Action) :
    Effect l (a.perform l).1 a (a.origin? l) (a.perform l).2 := by
  have hhead (i) (hi : i ∈ l.active.head?) := hl.exists_of_active (List.mem_of_mem_head? hi)
  have hlast (i) (hi : i ∈ l.active.getLast?) := hl.exists_of_active (List.mem_of_mem_getLast? hi)
  cases a with
  | push scope mode =>
    have h := effect_capture l (m := (Action.perform l (.push scope mode)).1)
      (a := .push scope mode) mode hhead
    rw [← hl.head_active] at h
    exact h rfl
  | pop => exact .none rfl
  | clear => exact .none rfl
  | current =>
    show Effect l l.memory _ _ (l.memory.current?.map _)
    rw [hl.head_active]
    exact effect_take l hhead
  | global =>
    show Effect l l.memory _ _ (l.memory.global?.map _)
    rw [hl.last_active]
    exact effect_take l hlast
  | clone i =>
    have h := effect_take l (a := .clone i) (exists_of_mem_filter (some i))
    rw [filter_bind_handle?] at h
    simpa [Action.perform, Action.origin?, Option.filter] using h
  | snapshot i =>
    simp only [Action.perform, Action.origin?]
    split
    · next hi =>
      rw [if_neg (Nat.not_lt.2 (handle?_eq_none.1 hi))]
      exact .none rfl
    · next h hh =>
      rw [if_pos (lt_count hh)]
      exact .copy hh rfl
  | capture mode source =>
    have h := effect_capture l (m := (Action.perform l (.capture mode source)).1)
      (a := .capture mode source) mode (exists_of_mem_filter source)
    rw [filter_bind_handle?] at h
    exact h rfl
  | set i name v =>
    simp only [Action.perform, Action.origin?]
    split
    · exact .none rfl
    · next h hh => exact .write name v hh rfl
  | get i name => exact .none rfl

theorem Effect.size_le {m : Memory} {a : Action} {origin : Option Origin} {new : Option Handle}
    (he : Effect l m a origin new) : l.memory.stores.size ≤ m.stores.size := by
  cases he with
  | share _ hm | none hm => exact Nat.le_of_eq (congrArg Array.size hm).symm
  | copy _ hm | empty hm =>
    rw [hm, Memory.size_alloc]
    exact Nat.le_succ _
  | write name v _ hm =>
    have hsize := congrArg Array.size hm
    exact Nat.le_of_eq (hsize.trans (Memory.size_write ..)).symm

/-! ## Every action keeps the invariant -/

theorem handle?_step (a : Action) (hi : i < l.count) : (l.step a).handle? i = l.handle? i :=
  List.getElem?_append_left hi

theorem handle?_step_of_some (a : Action) (hi : l.handle? i = some h) :
    (l.step a).handle? i = some h := by
  rw [handle?_step a (lt_count hi), hi]

theorem handle?_step_count (l : Ledger) (a : Action) :
    (l.step a).handle? l.count = (a.perform l).2 := by
  have hlast : (l.step a).handle? l.count = (a.perform l).2.toList[l.count - l.count]? :=
    List.getElem?_append_right (Nat.le_refl _)
  rw [hlast, Nat.sub_self]
  cases (a.perform l).2 <;> rfl

/-- A handle is an old one, or the one that the action obtains. -/
theorem handle?_step_cases {a : Action} (hi : (l.step a).handle? i = some h) :
    l.handle? i = some h ∨ i = l.count ∧ (a.perform l).2 = some h := by
  rcases Nat.lt_trichotomy i l.count with hlt | rfl | hgt
  · rw [handle?_step a hlt] at hi
    exact .inl hi
  · rw [handle?_step_count] at hi
    exact .inr ⟨rfl, hi⟩
  · have hlt := lt_count hi
    have hle : (a.perform l).2.toList.length ≤ 1 := by cases (a.perform l).2 <;> simp
    have hcount : (l.step a).count = l.count + (a.perform l).2.toList.length :=
      List.length_append
    omega

theorem connected_step (a : Action) (hij : l.Connected i j) : (l.step a).Connected i j :=
  hij.mono fun _ _ hlink => List.mem_append_left _ hlink

namespace Sound

variable (hl : l.Sound)
include hl

theorem inside_step (a : Action) (hi : (l.step a).handle? i = some h) :
    h < (l.step a).memory.stores.size := by
  have he := hl.effect a
  rcases handle?_step_cases hi with hold | ⟨-, hnew⟩
  · exact Nat.lt_of_lt_of_le (hl.inside hold) he.size_le
  · show h < (a.perform l).1.stores.size
    rw [hnew] at he
    generalize a.origin? l = origin at he
    cases he with
    | share hh hm =>
      rw [hm]
      exact hl.inside hh
    | copy _ hm | empty hm =>
      rw [hm, Memory.size_alloc]
      exact Nat.lt_succ_self _

theorem frames_step (a : Action) :
    List.Forall₂ (fun f i => (l.step a).handle? i = some f.store) (l.step a).memory.frames
      (a.active l) := by
  have hframes : List.Forall₂ (fun f i => (l.step a).handle? i = some f.store)
      l.memory.frames l.active := hl.frames.imp fun _ _ => handle?_step_of_some a
  cases a with
  | push scope mode =>
    have hkept : (l.step (.push scope mode)).memory.frames =
        ⟨scope, (l.memory.capture mode (l.memory.current?.map (·.store))).1⟩ ::
          l.memory.frames := congrArg (List.cons _) (Memory.frames_capture ..)
    rw [hkept]
    exact .cons (handle?_step_count l _) hframes
  | pop =>
    show List.Forall₂ _ l.memory.frames.tail l.active.tail
    generalize l.memory.frames = fs at hframes ⊢
    generalize l.active = numbers at hframes ⊢
    cases hframes with
    | nil => exact .nil
    | cons _ htl => exact htl
  | clear => exact .nil
  | capture mode source =>
    have hkept : (l.step (.capture mode source)).memory.frames = l.memory.frames :=
      Memory.frames_capture ..
    rw [hkept]
    exact hframes
  | snapshot i =>
    have hkept : (l.step (.snapshot i)).memory.frames = l.memory.frames := by
      simp only [Ledger.step, Action.perform]
      split <;> rfl
    rw [hkept]
    exact hframes
  | set i name v =>
    have hkept : (l.step (.set i name v)).memory.frames = l.memory.frames := by
      simp only [Ledger.step, Action.perform]
      split <;> rfl
    rw [hkept]
    exact hframes
  | current | global | clone | get => exact hframes

theorem linked_step (a : Action) (hij : (i, j) ∈ (l.step a).links) :
    ∃ h, (l.step a).handle? i = some h ∧ (l.step a).handle? j = some h := by
  rcases List.mem_append.1 hij with hold | hnew
  · obtain ⟨h, hi, hj⟩ := hl.linked hold
    exact ⟨h, handle?_step_of_some a hi, handle?_step_of_some a hj⟩
  · have he := hl.effect a
    have hcount := handle?_step_count l a
    generalize a.origin? l = origin at he hnew
    generalize (a.perform l).2 = new at he hcount
    cases he with
    | share hh _ =>
      simp only [link?, Option.toList_some, List.mem_singleton, Prod.mk.injEq] at hnew
      obtain ⟨rfl, rfl⟩ := hnew
      exact ⟨_, handle?_step_of_some a hh, hcount⟩
    | copy | empty | write | none => cases hnew

/-- The new handle denotes an old store only if it was taken from a handle of that store. -/
theorem joined_new (a : Action) (hnew : (a.perform l).2 = some h) (hj : l.handle? j = some h) :
    (l.step a).Connected l.count j := by
  have he := hl.effect a
  have hlinks : (l.step a).links = l.links ++ (l.link? (a.origin? l)).toList := rfl
  rw [hnew] at he
  generalize a.origin? l = origin at he hlinks
  cases he with
  | @share _ i _ hi _ =>
    have hlink : (i, l.count) ∈ (l.step a).links := by
      rw [hlinks]
      exact List.mem_append_right _ (List.mem_singleton.2 rfl)
    exact .trans _ _ _ (.symm _ _ (.rel _ _ hlink)) (connected_step a (hl.joined hi hj))
  | copy | empty => exact absurd (hl.inside hj) (Nat.lt_irrefl _)

theorem joined_step (a : Action) (hi : (l.step a).handle? i = some h)
    (hj : (l.step a).handle? j = some h) : (l.step a).Connected i j := by
  rcases handle?_step_cases hi with hold | ⟨rfl, hnew⟩ <;>
    rcases handle?_step_cases hj with hold' | ⟨rfl, hnew'⟩
  · exact connected_step a (hl.joined hold hold')
  · exact .symm _ _ (hl.joined_new a hnew' hold)
  · exact hl.joined_new a hnew hold'
  · exact .refl _

theorem step (a : Action) : (l.step a).Sound :=
  ⟨hl.inside_step a, hl.frames_step a, hl.linked_step a, hl.joined_step a⟩

theorem runFrom (as : List Action) : (l.runFrom as).Sound := by
  induction as generalizing l with
  | nil => exact hl
  | cons a as ih => exact ih (hl.step a)

end Sound

theorem sound_run (as : List Action) : (run as).Sound := sound_init.runFrom as

/-! ## What is read through a handle -/

/-- A handle denotes one store for ever. -/
theorem handle?_runFrom (as : List Action) (hi : l.handle? i = some h) :
    (l.runFrom as).handle? i = some h := by
  induction as generalizing l with
  | nil => exact hi
  | cons a as ih => exact ih (handle?_step_of_some a hi)

theorem get_of_handle? (hi : l.handle? i = some h) (name : String) :
    l.get i name = l.memory.read h name := by
  rw [get, hi, Option.bind_some]

namespace Sound

variable (hl : l.Sound) {name : String}
include hl

/-- A write is read through every handle of its store. -/
theorem get_step_set (hi : i < l.count) (hij : l.handle? i = l.handle? j) (name : String)
    (v : Value) : (l.step (.set i name v)).get j name = some v := by
  obtain ⟨h, hh⟩ := exists_handle hi
  have hj : l.handle? j = some h := hij ▸ hh
  rw [get_of_handle? (handle?_step_of_some _ hj)]
  show (Action.perform l (.set i name v)).1.read h name = _
  rw [Action.perform, hh]
  dsimp only
  rw [Memory.read_write _ (hl.inside hh), if_pos ⟨rfl, rfl⟩]

/-- Nothing else changes what is read. -/
theorem get_step {a : Action} (hj : j < l.count)
    (ha : ∀ i v, a = .set i name v → l.handle? i ≠ l.handle? j) :
    (l.step a).get j name = l.get j name := by
  obtain ⟨h, hh⟩ := exists_handle hj
  rw [get_of_handle? (handle?_step_of_some a hh), get_of_handle? hh]
  show (a.perform l).1.read h name = _
  have he := hl.effect a
  have hlt := Nat.ne_of_lt (hl.inside hh)
  generalize a.origin? l = origin at he
  generalize (a.perform l).2 = new at he
  generalize (a.perform l).1 = m at he
  cases he with
  | share _ hm | none hm => rw [Memory.read_congr hm]
  | copy _ hm | empty hm => rw [Memory.read_congr hm, Memory.read_alloc, if_neg hlt]
  | write name' v hi hm =>
    rw [Memory.read_congr hm, Memory.read_write _ (hl.inside hi), if_neg]
    rintro ⟨rfl, rfl⟩
    exact ha _ v rfl (hi.trans hh.symm)

/-- The same for any number of actions. -/
theorem get_runFrom {as : List Action} (hj : j < l.count)
    (has : ∀ i v, .set i name v ∈ as → (l.runFrom as).handle? i ≠ l.handle? j) :
    (l.runFrom as).get j name = l.get j name := by
  induction as generalizing l with
  | nil => rfl
  | cons a as ih =>
    have hkeep := handle?_step a hj
    obtain ⟨h, hh⟩ := exists_handle hj
    have hstep : (l.step a).get j name = l.get j name := by
      refine hl.get_step hj fun i v ha hij => ?_
      subst ha
      have hlast := handle?_runFrom (.set i name v :: as) (hij.trans hh)
      exact has i v List.mem_cons_self (hlast.trans hh.symm)
    refine (ih (hl.step a) (lt_count (handle?_step_of_some a hh)) fun i v hi => ?_).trans hstep
    rw [hkeep]
    exact has i v (List.mem_cons_of_mem _ hi)

/-- A copy starts with what is read through its source, on a store that no older handle denotes. -/
theorem copy_step {a : Action} (ha : a.origin? l = some (.copy i)) :
    (∀ name, (l.step a).get l.count name = l.get i name) ∧
      ∃ h, (l.step a).handle? l.count = some h ∧ ∀ j, l.handle? j ≠ some h := by
  have he := hl.effect a
  have hcount := handle?_step_count l a
  have hmemory : (l.step a).memory = (a.perform l).1 := rfl
  rw [ha] at he
  generalize (a.perform l).2 = new at he hcount
  generalize (a.perform l).1 = m at he hmemory
  cases he with
  | copy hh hm =>
    refine ⟨fun name => ?_, _, hcount, fun j hj => ?_⟩
    · rw [get_of_handle? hcount, get_of_handle? hh, hmemory, Memory.read_congr hm,
        Memory.read_alloc, if_pos rfl, Memory.read]
    · exact absurd (hl.inside hj) (Nat.lt_irrefl _)

/-- Nor does an older handle ever come to denote it. -/
theorem not_connected_copy {a : Action} (ha : a.origin? l = some (.copy i)) (later : List Action)
    (hj : j < l.count) : ¬((l.step a).runFrom later).Connected j l.count := by
  intro hconn
  obtain ⟨-, h, hh, hnew⟩ := hl.copy_step ha
  obtain ⟨h', hh'⟩ := exists_handle hj
  have hsame := ((hl.step a).runFrom later).handle?_eq_of_connected hconn
  rw [handle?_runFrom later hh, handle?_runFrom later (handle?_step_of_some a hh')] at hsame
  exact hnew j (hh'.trans hsame)

theorem empty_step {a : Action} (ha : a.origin? l = some .empty) (name : String) :
    (l.step a).get l.count name = none := by
  have he := hl.effect a
  have hcount := handle?_step_count l a
  have hmemory : (l.step a).memory = (a.perform l).1 := rfl
  rw [ha] at he
  generalize (a.perform l).2 = new at he hcount
  generalize (a.perform l).1 = m at he hmemory
  cases he with
  | empty hm =>
    rw [get_of_handle? hcount, hmemory, Memory.read_congr hm, Memory.read_alloc, if_pos rfl]
    simp

end Sound

/-- The aliasing law. After any actions the frames hold the handles of the active numbers, and two
handles denote one store just when a chain of handles taken from each other connects them. A write
is read through every handle of its store and through no other. A copy starts with what its source
holds and is never connected with an older handle, whatever is done later; a capture of any other
kind that makes a store starts empty. And no actions change what is read through a handle but
writes through handles connected with it: leaving scopes and dropping frames does not. -/
theorem aliasing (as : List Action) :
    let l := run as
    l.memory.frames.map (fun f => some f.store) = l.active.map l.handle? ∧
    (∀ i j, i < l.count → j < l.count → (l.handle? i = l.handle? j ↔ l.Connected i j)) ∧
    (∀ i j name name' v, i < l.count → j < l.count →
      (l.step (.set i name v)).get j name' =
        if name = name' ∧ l.handle? i = l.handle? j then some v else l.get j name') ∧
    (∀ a i, a.origin? l = some (.copy i) →
      (∀ name, (l.step a).get l.count name = l.get i name) ∧
      ∀ later j, j < l.count → ¬((l.step a).runFrom later).Connected j l.count) ∧
    (∀ a, a.origin? l = some .empty → ∀ name, (l.step a).get l.count name = none) ∧
    ∀ later j name, j < l.count →
      (∀ i v, .set i name v ∈ later → ¬(l.runFrom later).Connected i j) →
      (l.runFrom later).get j name = l.get j name := by
  intro l
  have hl : l.Sound := sound_run as
  refine ⟨?_, fun i j hi _ => hl.handle?_eq_iff hi, ?_, ?_, fun a ha => hl.empty_step ha, ?_⟩
  · have hf := hl.frames
    generalize l.memory.frames = fs at hf ⊢
    generalize l.active = numbers at hf ⊢
    induction hf with
    | nil => rfl
    | cons hd _ ih => rw [List.map_cons, List.map_cons, ih, hd]
  · intro i j name name' v hi hj
    split
    · next h =>
      obtain ⟨rfl, hij⟩ := h
      exact hl.get_step_set hi hij name v
    · next h =>
      refine hl.get_step hj fun i' v' ha hij => h ?_
      cases ha
      exact ⟨rfl, hij⟩
  · exact fun a i ha => ⟨(hl.copy_step ha).1, fun later j => hl.not_connected_copy ha later⟩
  · intro later j name hj hset
    refine hl.get_runFrom hj fun i v hi hij => hset i v hi ?_
    obtain ⟨h, hh⟩ := exists_handle hj
    rw [hh] at hij
    exact (hl.runFrom later).joined hij (handle?_runFrom later hh)

/-- A copied scope inside an outer one, and a scope inside it that shares the copy. A write in the
innermost scope is read in the middle one and not in the outer one, frames that are dropped leave
all as it is, and the innermost store can be copied and forgotten. -/
theorem aliasing_nested :
    let l := run [.push 0 .fresh, .set 0 "x" (.bool true), .push 1 .copied, .push 2 .shared]
    l.Connected 1 2 ∧ ¬l.Connected 0 2 ∧
    (l.step (.set 2 "x" .nil)).get 1 "x" = some .nil ∧
    (l.step (.set 2 "x" .nil)).get 0 "x" = l.get 0 "x" ∧
    (l.step (.snapshot 2)).get 3 "x" = l.get 2 "x" ∧
    ¬((l.step (.snapshot 2)).runFrom [.clone 3, .pop]).Connected 2 3 ∧
    (l.step (.push 3 .fresh)).get 3 "x" = none ∧
    (l.runFrom [.pop, .set 0 "x" .nil, .clear]).get 1 "x" = l.get 1 "x" := by
  intro l
  obtain ⟨-, hconn, hset, hcopy, hempty, hlater⟩ :=
    aliasing [.push 0 .fresh, .set 0 "x" (.bool true), .push 1 .copied, .push 2 .shared]
  have hsnapshot : Action.origin? l (.snapshot 2) = some (.copy 2) := rfl
  have hapart : ¬(l.runFrom [.pop, .set 0 "x" .nil, .clear]).Connected 0 1 := by
    intro h
    have hsound : (l.runFrom [.pop, .set 0 "x" .nil, .clear]).Sound := (sound_run _).runFrom _
    exact absurd (hsound.handle?_eq_of_connected h) (by decide)
  refine ⟨(hconn 1 2 (by decide) (by decide)).1 (by decide),
    fun h => absurd ((hconn 0 2 (by decide) (by decide)).2 h) (by decide),
    hset 2 1 "x" "x" .nil (by decide) (by decide), hset 2 0 "x" "x" .nil (by decide) (by decide),
    (hcopy _ 2 hsnapshot).1 "x", (hcopy _ 2 hsnapshot).2 _ 2 (by decide), hempty _ rfl "x", ?_⟩
  refine hlater [.pop, .set 0 "x" .nil, .clear] 1 "x" (by decide) fun i v hi => ?_
  simp only [List.mem_cons, reduceCtorEq, Action.set.injEq, List.not_mem_nil, false_or,
    or_false] at hi
  obtain ⟨rfl, -⟩ := hi
  exact hapart

end Ledger

end ScopeScript
