import ScopeScript.Memory

/-!
# What is in memory

`m.Holds base P`: every value bound in a store from `base` on satisfies `P`. The stores below `base`
are those that earlier runs left. Writes touch only the store of their handle, and `capture` puts
only values into memory that it found in the store it starts from.
-/

namespace ScopeScript

namespace Memory

variable {m : Memory} {h h' : Handle} {P : Value → Prop}

@[simp] theorem size_alloc (m : Memory) (s : Store) :
    (m.alloc s).2.stores.size = m.stores.size + 1 := by
  simp [alloc]

@[simp] theorem size_writeAll (m : Memory) (h : Handle) (bs : List (String × Value)) :
    (m.writeAll h bs).stores.size = m.stores.size := by
  induction bs generalizing m with
  | nil => rfl
  | cons b bs ih => exact (ih _).trans (size_write ..)

@[simp] theorem frames_writeAll (m : Memory) (h : Handle) (bs : List (String × Value)) :
    (m.writeAll h bs).frames = m.frames := by
  induction bs generalizing m with
  | nil => rfl
  | cons b bs ih => exact ih _

theorem writeAll_append (m : Memory) (h : Handle) (bs bs' : List (String × Value)) :
    m.writeAll h (bs ++ bs') = (m.writeAll h bs).writeAll h bs' := List.foldl_append

theorem store_write_of_ne (hne : h ≠ h') (name : String) (v : Value) :
    (m.write h name v).store h' = m.store h' := by
  simp [store, write, Array.getD_eq_getD_getElem?, Array.getElem?_modify, hne]

theorem store_writeAll_of_ne (hne : h ≠ h') (bs : List (String × Value)) :
    (m.writeAll h bs).store h' = m.store h' := by
  induction bs generalizing m with
  | nil => rfl
  | cons b bs ih => exact ih.trans (store_write_of_ne hne b.1 b.2)

/-- A write through a handle of no store does nothing. -/
theorem write_of_le (hh : m.stores.size ≤ h) (name : String) (v : Value) :
    m.write h name v = m := by
  have : m.stores.modify h (·.insert name v) = m.stores := by
    apply Array.ext_getElem?
    intro i
    rw [Array.getElem?_modify]
    split
    · next e => rw [← e, Array.getElem?_eq_none hh, Option.map_none]
    · rfl
  rw [write, this]

/-- What is read depends on the stores alone. -/
theorem read_congr {m m' : Memory} (h : m'.stores = m.stores) (a : Handle) (name : String) :
    m'.read a name = m.read a name := by
  rw [read, read, store, store, h]

/-- A write to another name does not change what a name is bound to. -/
theorem read_write_of_ne {name name' : String} (hne : name ≠ name') (v : Value) (h' : Handle) :
    (m.write h name v).read h' name' = m.read h' name' := by
  by_cases hh : h < m.stores.size
  · rw [read_write m hh, if_neg fun e => hne e.2]
  · rw [write_of_le (Nat.not_lt.1 hh)]

theorem store_of_le (hh : m.stores.size ≤ h) : m.store h = ∅ := by
  rw [store, Array.getD_eq_getD_getElem?, Array.getElem?_eq_none hh]
  rfl

theorem store_alloc (m : Memory) (s : Store) (h : Handle) :
    (m.alloc s).2.store h = if h = m.stores.size then s else m.store h := by
  rcases Nat.lt_trichotomy h m.stores.size with hlt | rfl | hgt
  · rw [if_neg (Nat.ne_of_lt hlt), store_alloc_of_lt m s hlt]
  · rw [if_pos rfl]
    exact store_alloc_self m s
  · rw [if_neg (Nat.ne_of_gt hgt), store_of_le (Nat.le_of_lt hgt), store_of_le]
    rw [size_alloc]
    exact hgt

theorem read_alloc (m : Memory) (s : Store) (h : Handle) (name : String) :
    (m.alloc s).2.read h name = if h = m.stores.size then s[name]? else m.read h name := by
  rw [read, store_alloc]
  split <;> rfl

/-- Only a handle of a store gives anything. -/
theorem lt_of_read {name : String} {v : Value} (hv : m.read h name = some v) :
    h < m.stores.size := by
  refine Nat.lt_of_not_le fun hge => ?_
  rw [read, store_of_le hge] at hv
  simp at hv

/-! ## Captured stores -/

section Capture

variable (m : Memory) (mode : Capture) (source : Option Handle)

@[simp] theorem frames_capture : (m.capture mode source).2.frames = m.frames := by
  unfold capture
  split <;> rfl

theorem size_le_capture : m.stores.size ≤ (m.capture mode source).2.stores.size := by
  unfold capture
  split <;> simp

theorem capture_lt (hs : ∀ h, source = some h → h < m.stores.size) :
    (m.capture mode source).1 < (m.capture mode source).2.stores.size := by
  unfold capture
  split
  · exact hs _ rfl
  · simp [alloc]
  · simp [alloc]

theorem le_capture {base : Handle} (hbase : base ≤ m.stores.size)
    (hs : ∀ h, source = some h → base ≤ h) : base ≤ (m.capture mode source).1 := by
  unfold capture
  split
  · exact hs _ rfl
  · exact hbase
  · exact hbase

theorem store_capture_of_lt (hh : h < m.stores.size) :
    (m.capture mode source).2.store h = m.store h := by
  unfold capture
  split
  · rfl
  · exact store_alloc_of_lt m _ hh
  · exact store_alloc_of_lt m _ hh

end Capture

/-! ## The values in memory -/

/-- Every value bound in a store from `base` on satisfies `P`. -/
def Holds (m : Memory) (base : Handle) (P : Value → Prop) : Prop :=
  ∀ h name v, base ≤ h → m.read h name = some v → P v

namespace Holds

variable {base : Handle}

theorem mono {Q : Value → Prop} (hm : m.Holds base P) (hPQ : ∀ v, P v → Q v) : m.Holds base Q :=
  fun h name v hh hv => hPQ v (hm h name v hh hv)

/-- There are no such stores yet. -/
theorem of_size_le (hm : m.stores.size ≤ base) : m.Holds base P :=
  fun _ _ _ hh hv => absurd (Nat.le_trans hm hh) (Nat.not_le.2 (lt_of_read hv))

theorem write (hm : m.Holds base P) (h : Handle) (name : String) {v : Value} (hv : P v) :
    (m.write h name v).Holds base P := by
  intro h' name' w hh' hw
  by_cases hh : h < m.stores.size
  · rw [read_write m hh] at hw
    split at hw
    · cases hw
      exact hv
    · exact hm h' name' w hh' hw
  · rw [write_of_le (Nat.not_lt.1 hh)] at hw
    exact hm h' name' w hh' hw

theorem writeAll {bs : List (String × Value)} (hm : m.Holds base P) (h : Handle)
    (hbs : ∀ b ∈ bs, P b.2) : (m.writeAll h bs).Holds base P := by
  induction bs generalizing m with
  | nil => exact hm
  | cons b bs ih =>
    rw [List.forall_mem_cons] at hbs
    exact ih (hm.write h b.1 hbs.1) hbs.2

theorem alloc {s : Store} (hm : m.Holds base P)
    (hs : ∀ (name : String) v, s[name]? = some v → P v) : (m.alloc s).2.Holds base P := by
  intro h name v hh hv
  rw [read_alloc] at hv
  split at hv
  · exact hs name v hv
  · exact hm h name v hh hv

theorem capture (hm : m.Holds base P) (mode : Capture) {source : Option Handle}
    (hsource : ∀ h, source = some h → base ≤ h) : (m.capture mode source).2.Holds base P := by
  unfold Memory.capture
  split
  · exact hm
  · exact hm.alloc fun name v hv => hm _ name v (hsource _ rfl) hv
  · exact hm.alloc fun name v hv => by simp at hv

end Holds

end Memory

end ScopeScript
