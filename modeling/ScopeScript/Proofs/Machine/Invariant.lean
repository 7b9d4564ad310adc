import ScopeScript.Proofs.Machine.Entering
import ScopeScript.Proofs.Machine.Stores
import ScopeScript.Proofs.Program.WellFormed

/-!
# The invariant of a run

A machine is sound when its frames are as expected, the outermost of them is that of the globals,
their stores exist, and every value in memory can be used: a function has a body that runs on a copy
of a store that exists, and a native function is registered. Memory here is what this run has put
there, the stores from `base` on. `m.Keeps p own m'` says what a
computation started on `m` must leave as it was: all stores but its own, and in the outermost one
all names that the program does not publish. Entering and leaving a scope keep both.
-/

namespace ScopeScript

/-- The value can be used in a memory of `size` stores, those below `base` apart. -/
def Value.Sound (s : Setup) (base size : Nat) : Value → Prop
  | .function c =>
    (base ≤ c.env ∧ c.env < size) ∧
      ∃ sc, s.program.scope? c.body = some sc ∧ sc.capture = .copied
  | .native name => ∃ n, s.native? name = some n
  | _ => True

theorem Value.Sound.mono {s : Setup} {base size size' : Nat} (hle : size ≤ size') {v : Value}
    (h : v.Sound s base size) : v.Sound s base size' := by
  cases v with
  | function c => exact ⟨⟨h.1.1, Nat.lt_of_lt_of_le h.1.2 hle⟩, h.2⟩
  | _ => exact h

namespace Machine

/-- The machine runs with the frames `fs` on the stores from `base` on, and can use all that is
there. -/
structure Sound (s : Setup) (base : Handle) (fs : List Frame) (m : Machine) : Prop where
  frames : m.memory.frames = fs
  active : ∀ f ∈ fs, base ≤ f.store ∧ f.store < m.memory.stores.size
  globals : fs.getLast?.map (·.store) = some m.globals
  values : m.memory.Holds base (Value.Sound s base m.memory.stores.size)

/-- All that `m` binds is bound so in `m'`, except in the store `own`, and except for published
names in the outermost store. -/
structure Keeps (p : Program) (own : Option Handle) (m m' : Machine) : Prop where
  globals : m'.globals = m.globals
  size : m.memory.stores.size ≤ m'.memory.stores.size
  read : ∀ {h name}, h < m.memory.stores.size → own ≠ some h → (h = m.globals → ¬p.Publishes name) →
    m'.memory.read h name = m.memory.read h name

namespace Keeps

variable {p : Program} {own : Option Handle} {m m' m'' : Machine}

theorem refl (m : Machine) : m.Keeps p own m := ⟨rfl, Nat.le_refl _, fun _ _ _ => rfl⟩

theorem trans (h : m.Keeps p own m') (h' : m'.Keeps p own m'') : m.Keeps p own m'' where
  globals := h'.globals.trans h.globals
  size := Nat.le_trans h.size h'.size
  read hh hown hpub := by
    rw [h'.read (Nat.lt_of_lt_of_le hh h.size) hown (by rwa [h.globals]), h.read hh hown hpub]

/-- What is kept with no store of its own is kept with one. -/
theorem weaken (h : m.Keeps p none m') : m.Keeps p own m' :=
  ⟨h.globals, h.size, fun hh _ hpub => h.read hh (by simp) hpub⟩

/-- A store that is new to `m` need not be told apart. -/
theorem forget {own' : Handle} (h : m.Keeps p (some own') m') (hnew : m.memory.stores.size ≤ own') :
    m.Keeps p own m' := by
  refine ⟨h.globals, h.size, fun hh _ hpub => h.read hh ?_ hpub⟩
  rintro ⟨⟩
  exact absurd hh (Nat.not_lt.2 hnew)

end Keeps

/-! ## Entering and leaving a scope -/

section

variable {s : Setup} {p : Program} {base : Handle} {fs : List Frame} {m : Machine}

theorem Sound.of_memory_eq (hm : m.Sound s base fs) {m' : Machine} (h : m'.memory = m.memory)
    (hg : m'.globals = m.globals) : m'.Sound s base fs := by
  obtain ⟨h₁, h₂, h₃, h₄⟩ := hm
  exact ⟨by rwa [h], by rwa [h], by rwa [hg], by rwa [h]⟩

theorem Keeps.of_memory_eq {own : Option Handle} {m' : Machine} (h : m'.memory = m.memory)
    (hg : m'.globals = m.globals) : m.Keeps p own m' :=
  ⟨hg, Nat.le_of_eq (by rw [h]), fun _ _ _ => by rw [h]⟩

theorem Sound.frames_ne_nil (hm : m.Sound s base fs) : fs ≠ [] := by
  rintro rfl
  have := hm.globals
  simp at this

theorem Sound.globals_mem (hm : m.Sound s base fs) :
    base ≤ m.globals ∧ m.globals < m.memory.stores.size := by
  obtain ⟨f, hf, hg⟩ := Option.map_eq_some_iff.1 hm.globals
  rw [← hg]
  exact hm.active f (List.mem_of_mem_getLast? hf)

theorem Sound.base_le (hm : m.Sound s base fs) : base ≤ m.memory.stores.size :=
  Nat.le_trans hm.globals_mem.1 (Nat.le_of_lt hm.globals_mem.2)

/-- A scope is entered with a frame for the captured store. -/
theorem Sound.enter (hm : m.Sound s base fs) (sc : Scope) {source : Option Handle}
    (hsource : ∀ h, source = some h → base ≤ h ∧ h < m.memory.stores.size)
    {bs : List (String × Value)} (hbs : ∀ b ∈ bs, b.2.Sound s base m.memory.stores.size) :
    (m.enter sc source bs).Sound s base
      (⟨sc.id, (m.memory.capture sc.capture source).1⟩ :: fs) := by
  have hsize : (m.enter sc source bs).memory.stores.size =
      (m.memory.capture sc.capture source).2.stores.size := Memory.size_writeAll ..
  have hbase (h : Handle) (hh : source = some h) : base ≤ h := (hsource h hh).1
  have hle := m.memory.size_le_capture sc.capture source
  have hlt := m.memory.capture_lt sc.capture source fun h hh => (hsource h hh).2
  constructor
  · simp [Machine.enter, Memory.push, hm.frames]
  · intro f hf
    rw [hsize]
    rcases List.mem_cons.1 hf with rfl | hf
    · exact ⟨m.memory.le_capture _ _ hm.base_le hbase, hlt⟩
    · exact ⟨(hm.active f hf).1, Nat.lt_of_lt_of_le (hm.active f hf).2 hle⟩
  · rw [List.getLast?_cons_of_ne_nil hm.frames_ne_nil]
    exact hm.globals
  · rw [hsize]
    have hmono {v : Value} (hv : v.Sound s base m.memory.stores.size) := hv.mono hle
    refine Memory.Holds.writeAll ?_ _ fun b hb => hmono (hbs b hb)
    exact (hm.values.capture _ hbase).mono fun _ => hmono

/-- Entering a scope writes to the captured store only. -/
theorem keeps_enter (p : Program) (m : Machine) (sc : Scope) (source : Option Handle)
    (bs : List (String × Value)) :
    m.Keeps p (some (m.memory.capture sc.capture source).1) (m.enter sc source bs) where
  globals := rfl
  size := by
    rw [show (m.enter sc source bs).memory.stores.size =
      (m.memory.capture sc.capture source).2.stores.size from Memory.size_writeAll ..]
    exact m.memory.size_le_capture _ _
  read := by
    intro h name hh hown _
    have hne : (m.memory.capture sc.capture source).1 ≠ h := fun e => hown (by rw [e])
    change (Memory.store _ h)[name]? = (Memory.store _ h)[name]?
    rw [← m.memory.store_capture_of_lt sc.capture source hh]
    exact congrArg (·[name]?) (Memory.store_writeAll_of_ne hne bs)

theorem Sound.enterCall (hm : m.Sound s base fs) (sc : Scope) {c : Closure} {args : List Value}
    (henv : base ≤ c.env ∧ c.env < m.memory.stores.size)
    (hargs : ∀ v ∈ args, v.Sound s base m.memory.stores.size) :
    (m.enterCall sc c args).Sound s base
      (⟨sc.id, (m.memory.capture sc.capture (some c.env)).1⟩ :: fs) := by
  have hbs (b : String × Value) (hb : b ∈ c.params.zip args) :
      b.2.Sound s base m.memory.stores.size := hargs b.2 (List.of_mem_zip hb).2
  exact (hm.enter sc (fun h hh => Option.some.inj hh ▸ henv) hbs).of_memory_eq rfl rfl

theorem keeps_enterCall (p : Program) (m : Machine) (sc : Scope) (c : Closure) (args : List Value) :
    m.Keeps p (some (m.memory.capture sc.capture (some c.env)).1) (m.enterCall sc c args) :=
  (m.keeps_enter p sc (some c.env) (c.params.zip args)).trans (.of_memory_eq rfl rfl)

theorem Sound.leave {f : Frame} (hm : m.Sound s base (f :: fs)) (hfs : fs ≠ []) :
    m.leave.Sound s base fs where
  frames := by simp [Machine.leave, Memory.pop, hm.frames]
  active f' hf' := hm.active f' (by simp [hf'])
  globals := by
    have := hm.globals
    rwa [List.getLast?_cons_of_ne_nil hfs] at this
  values := hm.values

theorem keeps_leave {own : Option Handle} : m.Keeps p own m.leave :=
  ⟨rfl, Nat.le_refl _, fun _ _ _ => rfl⟩

theorem keeps_leaveCall {own : Option Handle} : m.Keeps p own m.leaveCall :=
  ⟨rfl, Nat.le_refl _, fun _ _ _ => rfl⟩

end

end Machine

end ScopeScript
