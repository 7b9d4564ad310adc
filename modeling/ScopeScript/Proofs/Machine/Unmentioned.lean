import ScopeScript.Proofs.Machine.Lockstep

/-!
# Natives that a program does not mention

A further native is bound in the outermost store before the run begins, and from there it gets into
every store that is captured along the way. The memories of the runs with and without it differ all
over, but only at its name (`Memory.Extends`), and a program that does not mention the name neither
looks there nor comes by the native as a value. The two runs stay in lockstep (`lockstep_register`),
and in the end the bindings of the outermost scope differ by the one of the native (`run_register`).
Stores that earlier runs left, those below `base`, may hold anything: the program has no handle of
them.
-/

namespace ScopeScript

/-- All names but `z` may come up, and the stores from `base` on stand for themselves. -/
def Renaming.except (z : String) (base : Handle) : Renaming where
  name := (· ≠ z)
  handle h h' := h' = h ∧ base ≤ h
  identity := Eq

variable {z : String} {base : Handle}

/-- The value has nothing to do with the name or the stores below `base`. -/
def Value.Keeps (z : String) (base : Handle) (v : Value) : Prop := v.Renamed (.except z base) v

theorem Value.Renamed.eq {v v' : Value} (h : v.Renamed (.except z base) v') : v = v' := by
  cases h with
  | function _ _ henv hi =>
    cases henv.1
    cases hi
    rfl
  | _ => rfl

namespace Memory

variable {m m' : Memory} {g h : Handle}

/-- The second memory is the first but for the name `z`: it has that name bound to the native of
that name in the store `g`, and perhaps to something in other stores. The first binds `z` nowhere,
and no value in it has to do with `z`. -/
structure Extends (z : String) (base g : Handle) (m m' : Memory) : Prop where
  frames : m'.frames = m.frames
  active : ∀ f ∈ m.frames, base ≤ f.store
  size : m'.stores.size = m.stores.size
  reads : ∀ h name, base ≤ h → name ≠ z → m'.read h name = m.read h name
  values : m.Holds base (Value.Keeps z base)
  unbound : ∀ h, base ≤ h → m.read h z = none
  bound : m'.read g z = some (.native z)
  above : base ≤ g

theorem read_writeAll_of_ne {bs : List (String × Value)} {name : String}
    (hbs : ∀ b ∈ bs, b.1 ≠ name) (h' : Handle) :
    (m.writeAll h bs).read h' name = m.read h' name := by
  induction bs generalizing m with
  | nil => rfl
  | cons b bs ih =>
    obtain ⟨hb, hbs⟩ := List.forall_mem_cons.1 hbs
    exact (ih hbs).trans (read_write_of_ne hb b.2 h')

/-- Binding the name where it is unbound. -/
theorem extends_write (hg : base ≤ g) (hlt : g < m.stores.size)
    (hactive : ∀ f ∈ m.frames, base ≤ f.store) (hvalues : m.Holds base (Value.Keeps z base))
    (hunbound : ∀ h, base ≤ h → m.read h z = none) :
    m.Extends z base g (m.write g z (.native z)) where
  frames := rfl
  active := hactive
  size := size_write ..
  reads h _ _ hname := read_write_of_ne (Ne.symm hname) _ h
  values := hvalues
  unbound := hunbound
  bound := by rw [read_write m hlt, if_pos ⟨rfl, rfl⟩]
  above := hg

namespace Extends

variable (hm : m.Extends z base g m')
include hm

theorem bound_lt : g < m.stores.size := by
  rw [← hm.size]
  exact lt_of_read hm.bound

theorem base_le : base ≤ m.stores.size := Nat.le_trans hm.above (Nat.le_of_lt hm.bound_lt)

theorem frames_renamed : List.Forall₂ (Frame.Renamed (.except z base)) m.frames m'.frames := by
  rw [hm.frames]
  exact List.forall₂_same.2 fun f hf => .mk f.scope ⟨rfl, hm.active f hf⟩

/-- The frames are not what the memories are told apart by. -/
theorem withFrames {fs fs' : List Frame}
    (hfs : List.Forall₂ (Frame.Renamed (.except z base)) fs fs') :
    Extends z base g { m with frames := fs } { m' with frames := fs' } := by
  have hall : fs' = fs ∧ ∀ f ∈ fs, base ≤ f.store := by
    induction hfs with
    | nil => exact ⟨rfl, List.forall_mem_nil _⟩
    | cons hf _ ih =>
      cases hf with
      | mk scope hh =>
        obtain ⟨rfl, hbase⟩ := hh
        exact ⟨congrArg _ ih.1, List.forall_mem_cons.2 ⟨hbase, ih.2⟩⟩
  exact { hm with frames := hall.1, active := hall.2 }

theorem read_renamed {h h' : Handle} (hh : (Renaming.except z base).handle h h') {name : String}
    (hname : name ≠ z) :
    Option.Rel (Value.Renamed (.except z base)) (m.read h name) (m'.read h' name) := by
  obtain ⟨rfl, hbase⟩ := hh
  rw [hm.reads _ name hbase hname]
  cases hv : m.read h' name with
  | none => exact .none
  | some v => exact .some (hm.values _ name v hbase hv)

theorem write (h : Handle) {name : String} {v : Value} (hname : name ≠ z)
    (hv : v.Keeps z base) : (m.write h name v).Extends z base g (m'.write h name v) := by
  by_cases hh : h < m.stores.size
  · have hh' : h < m'.stores.size := by
      rw [hm.size]
      exact hh
    constructor
    · exact hm.frames
    · exact hm.active
    · rw [size_write, size_write, hm.size]
    · intro h' name' hbase hname'
      rw [read_write m hh, read_write m' hh', hm.reads h' name' hbase hname']
    · exact hm.values.write h name hv
    · intro h' hbase
      rw [read_write_of_ne hname, hm.unbound h' hbase]
    · rw [read_write_of_ne hname, hm.bound]
    · exact hm.above
  · rw [write_of_le (Nat.not_lt.1 hh), write_of_le (by rw [hm.size]; exact Nat.not_lt.1 hh)]
    exact hm

/-- New stores that differ at the one name only. -/
theorem alloc {t t' : Store} (hreads : ∀ name : String, name ≠ z → t'[name]? = t[name]?)
    (hvalues : ∀ (name : String) v, t[name]? = some v → v.Keeps z base) (hunbound : t[z]? = none) :
    (m.alloc t).2.Extends z base g (m'.alloc t').2 where
  frames := hm.frames
  active := hm.active
  size := by rw [size_alloc, size_alloc, hm.size]
  reads h name hbase hname := by
    rw [read_alloc, read_alloc, hm.size, hreads name hname, hm.reads h name hbase hname]
  values := hm.values.alloc hvalues
  unbound h hbase := by
    rw [read_alloc, hunbound, hm.unbound h hbase]
    split <;> rfl
  bound := by
    rw [read_alloc, hm.size, if_neg (Nat.ne_of_lt hm.bound_lt), hm.bound]
  above := hm.above

/-- The same handle is captured, that of the source or that of the next store, and the memories
differ as before. -/
theorem capture (mode : Capture) {source source' : Option Handle}
    (hsource : Option.Rel (Renaming.except z base).handle source source') :
    (Renaming.except z base).handle (m.capture mode source).1 (m'.capture mode source').1 ∧
      (m.capture mode source).2.Extends z base g (m'.capture mode source').2 := by
  have hempty : (Renaming.except z base).handle (m.alloc ∅).1 (m'.alloc ∅).1 ∧
      (m.alloc ∅).2.Extends z base g (m'.alloc ∅).2 :=
    ⟨⟨hm.size, hm.base_le⟩, hm.alloc (fun _ _ => rfl) (by simp) (by simp)⟩
  cases hsource with
  | none => cases mode <;> exact hempty
  | some hh =>
    obtain ⟨rfl, hbase⟩ := hh
    cases mode with
    | shared => exact ⟨⟨rfl, hbase⟩, hm⟩
    | copied =>
      refine ⟨⟨hm.size, hm.base_le⟩, hm.alloc (fun name => hm.reads _ name hbase) ?_ ?_⟩
      · exact fun name v => hm.values _ name v hbase
      · exact hm.unbound _ hbase
    | fresh => exact hempty

/-- The store with the native has that one binding more. -/
theorem store_eq : m'.store g = (m.store g).insert z (.native z) := by
  refine Std.ExtTreeMap.ext_getElem? fun {name} => ?_
  rw [Std.ExtTreeMap.getElem?_insert]
  split
  · next e => rw [← compare_eq_iff_eq.1 e]; exact hm.bound
  · next e => exact hm.reads g name hm.above fun hname => e (compare_eq_iff_eq.2 hname.symm)

end Extends

end Memory

/-- The machines are the same but for memory. -/
structure Machine.Extends (z : String) (base : Handle) (m m' : Machine) : Prop where
  memory : m.memory.Extends z base m.globals m'.memory
  globals : m'.globals = m.globals
  transcript : m'.transcript = m.transcript
  location : m'.location = m.location
  depth : m'.depth = m.depth
  calls : m'.calls = m.calls
  functions : m'.functions = m.functions

/-! ## What natives answer -/

/-- The answers of a native to these snippets, where it was called with others before. -/
def Native.replies (n : Native) (earlier : List String) : List String → List Reply
  | [] => []
  | snippet :: rest => n.answer earlier snippet :: n.replies (earlier ++ [snippet]) rest

theorem Native.replies_append (n : Native) (earlier rest : List String) (snippet : String) :
    n.replies earlier (rest ++ [snippet]) =
      n.replies earlier rest ++ [n.answer (earlier ++ rest) snippet] := by
  induction rest generalizing earlier with
  | nil => rw [List.append_nil]; rfl
  | cons x rest ih =>
    rw [List.cons_append, replies, replies, ih, List.append_assoc]
    rfl

namespace Setup

variable {s : Setup} {n : Native} {name : String}

/-- The answers of the native of this name to the calls of it, in order. -/
def replies (s : Setup) (calls : Array NativeCall) (name : String) : List Reply :=
  match s.native? name with
  | none => []
  | some n => n.replies [] (Eval.snippetsOf name calls)

theorem replies_push (hn : s.native? name = some n) (calls : Array NativeCall) (snippet : String) :
    s.replies (calls.push ⟨name, snippet⟩) name =
      s.replies calls name ++ [n.answer (Eval.snippetsOf name calls) snippet] := by
  have hsnippets : Eval.snippetsOf name (calls.push ⟨name, snippet⟩) =
      Eval.snippetsOf name calls ++ [snippet] := by
    simp [Eval.snippetsOf]
  rw [replies, replies, hn, hsnippets]
  exact n.replies_append [] _ snippet

/-- A call comes to the reply that it adds to those of its native. -/
theorem callNative_replies (hn : s.native? name = some n) (snippet : String) (args : List Value)
    (o : Nat) (m : Machine) :
    ∃ reply m', Eval.callNative s name (.text snippet :: args) o m = Eval.ofReply name o reply m' ∧
      s.replies m'.calls name = s.replies m.calls name ++ [reply] := by
  rw [Eval.callNative_text, hn]
  exact ⟨_, _, rfl, replies_push hn m.calls snippet⟩

/-! ## One native more -/

theorem native?_register (hname : name ≠ n.name) :
    (s.register n).native? name = s.native? name := by
  have hkept : (fun n' : Native => decide ((n'.name != n.name) = true ∧ (n'.name == name) = true)) =
      fun n' => n'.name == name := by
    funext n'
    by_cases e : n'.name = name
    · simp [e, hname]
    · simp [e]
  have hlast : [n].find? (·.name == name) = none := by simp [Ne.symm hname]
  rw [native?, native?, register, List.find?_append, List.find?_filter, hkept, hlast,
    Option.or_none]

theorem natives_register (hnew : ∀ n' ∈ s.natives, n'.name ≠ n.name) :
    (s.register n).natives = s.natives ++ [n] := by
  rw [register, List.filter_eq_self.2]
  exact fun n' hn' => bne_iff_ne.2 (hnew n' hn')

/-- A run starts with the one binding more, in a store of its own. -/
theorem extends_inside (hnew : ∀ n' ∈ s.natives, n'.name ≠ n.name) (root : Scope) (m : Machine) :
    (s.inside root m).Extends n.name m.memory.stores.size ((s.register n).inside root m) := by
  refine ⟨?_, rfl, rfl, rfl, rfl, rfl, rfl⟩
  let base := m.memory.stores.size
  let memory := m.reset.memory
  let g := (memory.capture root.capture none).1
  let own := (memory.capture root.capture none).2
  let bs := s.natives.map fun n => (n.name, Value.native n.name)
  have hg : base ≤ g := memory.le_capture root.capture none (Nat.le_refl _) (by simp)
  have hlt : g < own.stores.size := memory.capture_lt root.capture none (by simp)
  have hbs (b : String × Value) (hb : b ∈ bs) : b.1 ≠ n.name ∧ b.2.Keeps n.name base := by
    obtain ⟨n', hn', rfl⟩ := List.mem_map.1 hb
    exact ⟨hnew n' hn', .native (hnew n' hn')⟩
  have hown {P : Value → Prop} : own.Holds base P :=
    (Memory.Holds.of_size_le (Nat.le_refl _)).capture root.capture (by simp)
  have hregister : (s.register n).natives.map (fun n => (n.name, Value.native n.name)) =
      bs ++ [(n.name, .native n.name)] := by
    rw [natives_register hnew, List.map_append]
    rfl
  show ((own.writeAll g bs).push ⟨root.id, g⟩).Extends n.name base g
    ((own.writeAll g ((s.register n).natives.map fun n => (n.name, .native n.name))).push
      ⟨root.id, g⟩)
  rw [hregister, Memory.writeAll_append]
  have hwritten : (own.writeAll g bs).Extends n.name base g
      ((own.writeAll g bs).write g n.name (.native n.name)) := by
    refine Memory.extends_write hg ?_ ?_ ?_ fun h hbase => ?_
    · rw [Memory.size_writeAll]
      exact hlt
    · rw [Memory.frames_writeAll, Memory.frames_capture]
      exact List.forall_mem_nil _
    · exact hown.writeAll g fun b hb => (hbs b hb).2
    · rw [Memory.read_writeAll_of_ne fun b hb => (hbs b hb).1]
      exact Option.eq_none_iff_forall_ne_some.2 fun v => hown (P := fun _ => False) h _ v hbase
  exact hwritten.withFrames (.cons (.mk root.id ⟨rfl, hg⟩) hwritten.frames_renamed)

theorem callNative_register (hname : name ≠ n.name) (base : Handle) (args : List Value) (o : Nat) :
    Eval.Parallel (Machine.Extends n.name base) (Value.Renamed (.except n.name base))
      (Eval.callNative s name args o) (Eval.callNative (s.register n) name args o) := by
  cases args with
  | nil => exact .fault _ o
  | cons v args =>
    cases v with
    | text snippet =>
      rw [Eval.callNative_text, Eval.callNative_text, native?_register hname]
      cases s.native? name with
      | none => exact .fault _ o
      | some native =>
        have hrecord : Eval.Parallel (Machine.Extends n.name base) Eq
            (Eval.recordCall name snippet) (Eval.recordCall name snippet) := by
          intro m m' h
          refine .ok ?_ { h with calls := congrArg (Array.push · ⟨name, snippet⟩) h.calls }
          rw [h.calls]
        exact hrecord.bind_eq fun earlier => Eval.Parallel.ofReply name o _
    | _ => exact .fault _ o

/-- A native of a name that the program does not mention goes unnoticed. -/
theorem lockstep_register (hn : n.name ∉ s.program.names) (base : Handle) :
    Eval.Lockstep (.except n.name base) s (s.register n) (Machine.Extends n.name base) where
  program := rfl
  limit := rfl
  names _ hx := ne_of_mem_of_not_mem hx hn
  identities hi hj := by
    cases hi
    cases hj
    exact Iff.rfl
  frames h := h.memory.frames_renamed
  depth h := h.depth
  functions h := h.functions.symm
  reads h _ _ _ hh := h.memory.read_renamed hh
  captured h mode _ _ hsource := (h.memory.capture mode hsource).1
  locate h _ := { h with location := rfl }
  print h line := { h with transcript := congrArg (Array.push · line) h.transcript }
  count h := { h with functions := congrArg (· + 1) h.functions }
  nest h _ := { h with depth := rfl }
  write h _ _ _ _ _ hh hname hv := by
    obtain ⟨rfl, -⟩ := hh
    cases hv.eq
    exact { h with memory := h.memory.write _ hname hv }
  capture h mode _ _ hsource := { h with memory := (h.memory.capture mode hsource).2 }
  stack h _ _ hfs := { h with memory := h.memory.withFrames hfs }
  callNative hname args args' hargs o := by
    have hsame : List.Forall₂ Eq args args' := hargs.imp fun _ _ => Value.Renamed.eq
    rw [List.forall₂_eq_eq_eq] at hsame
    cases hsame
    exact callNative_register hname base _ o

/-- In a run of a compiled program, a further native that the program does not mention changes
nothing but the bindings of the outermost scope, and these only by its own. -/
theorem run_register {source : String} (hp : compile source = .ok s.program)
    (hnew : ∀ n' ∈ s.natives, n'.name ≠ n.name) (hn : n.name ∉ s.program.names) (m : Machine) :
    let r := s.run m
    let r' := (s.register n).run m
    let left := Eval.after r
    let left' := Eval.after r'
    Eval.halt? r' = Eval.halt? r ∧
    left'.transcript = left.transcript ∧
    left'.location = left.location ∧
    left'.calls = left.calls ∧
    (∀ name, name ≠ n.name → (s.register n).replies left'.calls name = s.replies left.calls name) ∧
    ∃ g : Store, left.bindings = g.bindings ∧ n.name ∉ g ∧
      left'.bindings = Store.bindings (g.insert n.name (.native n.name)) := by
  obtain ⟨root, hroot⟩ := (Program.wellFormed_of_compile hp).root
  intro r r' left left'
  have hrun : Eval.Alike (Machine.Extends n.name m.memory.stores.size) Eq r r' :=
    (lockstep_register hn _).runWith hroot (extends_inside hnew root m) s.fuel
  have hleft := hrun.after
  refine ⟨hrun.halt?_eq, hleft.transcript, hleft.location, hleft.calls, fun name hname => ?_,
    left.memory.store left.globals, rfl, ?_, ?_⟩
  · rw [replies, replies, hleft.calls, native?_register hname]
  · intro hmem
    have hsome := Std.ExtTreeMap.getElem?_eq_some_getElem hmem
    rw [show (left.memory.store left.globals)[n.name]? = none from
      hleft.memory.unbound _ hleft.memory.above] at hsome
    cases hsome
  · rw [Machine.bindings, hleft.globals, hleft.memory.store_eq]

/-- The native that is called goes on as before; the other one is bound and left alone. -/
theorem run_register_spare :
    ∃ (s : Setup) (n : Native), compile "let a = host(\"t\")" = .ok s.program ∧
      let left := Eval.after (s.run {})
      let left' := Eval.after ((s.register n).run {})
      left.calls = #[⟨"host", "t"⟩] ∧
      left.bindings = [("a", .text "t"), ("host", .native "host")] ∧
      left'.bindings = [("a", .text "t"), ("host", .native "host"), ("spare", .native "spare")] ∧
      Eval.halt? ((s.register n).run {}) = Eval.halt? (s.run {}) ∧
      left'.transcript = left.transcript ∧ left'.calls = left.calls ∧
      (s.register n).replies left'.calls "host" = s.replies left.calls "host" ∧
      ∃ g : Store, left.bindings = g.bindings ∧ n.name ∉ g ∧
        left'.bindings = Store.bindings (g.insert n.name (.native n.name)) := by
  let root : Scope :=
    ⟨0, none, .fresh, [.bind "a" (.call (.var "host" 8) [.text "t" 13] 12) false 0], 0⟩
  let s : Setup :=
    { program := { scopes := #[root], root := 0 }, natives := [⟨"host", fun _ t => .text t⟩] }
  let n : Native := ⟨"spare", fun _ _ => .nil⟩
  have hscan : Token.scan "let a = host(\"t\")" = .ok
      [⟨.sign .openBrace, 0⟩, ⟨.keyword .let, 0⟩, ⟨.name "a", 4⟩, ⟨.sign .equal, 6⟩,
        ⟨.name "host", 8⟩, ⟨.sign .openParen, 12⟩, ⟨.text "t", 13⟩, ⟨.sign .closeParen, 16⟩,
        ⟨.sign .closeBrace, 17⟩, ⟨.finish, 17⟩] := by decide +kernel
  have h : compile "let a = host(\"t\")" = .ok s.program := by
    rw [compile, hscan]
    cbv
  obtain ⟨hhalt, hlines, -, hcalls, hreplies, hglobals⟩ :=
    run_register (n := n) h (by decide) (by decide) {}
  exact ⟨s, n, h, by decide +kernel, by decide +kernel, by decide +kernel, hhalt, hlines, hcalls,
    hreplies "host" (by decide), hglobals⟩

end Setup

end ScopeScript
