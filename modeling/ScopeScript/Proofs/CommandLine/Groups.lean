import Mathlib.Data.List.Perm.Basic
import ScopeScript.CommandLine.Options

/-!
# Groups of arguments

The arguments are read in groups (`groups`): the flag of a depth setting with the value behind it,
and every other argument alone. Each group of an accepted command line sets one thing
(`Group.setting?`), and the reader collects the settings from left to right (`scan_ok_iff`): of
the depths the last one counts, flags may be repeated, and there is at most one file. So only the
order of the depth settings matters, and how they are written does not.
-/

namespace ScopeScript.CommandLine

/-- The text is a positive number of at most 64 bits: digits, perhaps behind a plus, with blanks
around them. -/
def Denotes (cs : List Char) (n : Nat) : Prop :=
  ∃ ds, (Text.trim cs = ds ∨ Text.trim cs = '+' :: ds) ∧ ds ≠ [] ∧
    (∀ d ∈ ds, d.isDigit = true) ∧ Decimal.ofDigits ds = n ∧ 1 ≤ n ∧ n ≤ largestNumber

theorem positive?_eq_some_iff {cs : List Char} {n : Nat} :
    positive? cs = some n ↔ Denotes cs n := by
  have hdigits (ds : List Char) :
      (if !ds.isEmpty && ds.all Char.isDigit && 0 < Decimal.ofDigits ds &&
          Decimal.ofDigits ds ≤ largestNumber then some (Decimal.ofDigits ds) else none) = some n ↔
        ds ≠ [] ∧ (∀ d ∈ ds, d.isDigit = true) ∧ Decimal.ofDigits ds = n ∧ 1 ≤ n ∧
          n ≤ largestNumber := by
    simp only [Option.ite_none_right_eq_some, Bool.and_eq_true, Bool.not_eq_true',
      decide_eq_true_eq, List.all_eq_true, Option.some.injEq, ← Bool.not_eq_true,
      List.isEmpty_iff]
    constructor
    · rintro ⟨⟨⟨⟨hne, hds⟩, hpos⟩, hle⟩, rfl⟩
      exact ⟨hne, hds, rfl, hpos, hle⟩
    · rintro ⟨hne, hds, rfl, hpos, hle⟩
      exact ⟨⟨⟨⟨hne, hds⟩, hpos⟩, hle⟩, rfl⟩
  unfold positive? Denotes
  dsimp only
  split
  · next ds htrim =>
    rw [hdigits]
    constructor
    · exact fun h => ⟨ds, .inr htrim, h⟩
    · rintro ⟨ds', htext | htext, hne, hds, h⟩
      · -- the plus itself is no digit
        have hplus := hds '+' (by rw [← htext, htrim]; exact List.mem_cons_self)
        cases hplus
      · obtain rfl : ds = ds' := by
          rw [htrim] at htext
          exact (List.cons.inj htext).2
        exact ⟨hne, hds, h⟩
  · next hplus =>
    rw [hdigits]
    constructor
    · exact fun h => ⟨_, .inl rfl, h⟩
    · rintro ⟨ds', rfl | htext, h⟩
      · exact h
      · exact absurd htext (hplus ds')

/-- What is read in one go: the flag of a depth setting with its value, or any other argument. -/
inductive Group where
  | pair (value : String)
  | word (arg : String)
  deriving DecidableEq, Repr

/-- The groups of the arguments. A flag without a value stands alone at the end. -/
def groups : List String → List Group
  | [] => []
  | [arg] => [.word arg]
  | arg :: value :: rest =>
    if arg = depthFlag then .pair value :: groups rest else .word arg :: groups (value :: rest)

namespace Group

def args : Group → List String
  | .pair value => [depthFlag, value]
  | .word arg => [arg]

/-- The value that a depth setting is given, in either way of writing one. -/
def depthText? : Group → Option (List Char)
  | .pair value => some value.toList
  | .word arg => depthValue? arg.toList

end Group

inductive Setting where
  | depth (limit : Nat)
  | hideGlobals
  | viewer
  | file (path : String)
  deriving DecidableEq, Repr

namespace Setting

def depth? : Setting → Option Nat
  | .depth n => some n
  | _ => none

def file? : Setting → Option String
  | .file path => some path
  | _ => none

end Setting

/-- What a group sets, if it asks for no help and has no fault of its own. -/
def Group.setting? : Group → Option Setting
  | .pair value => (positive? value.toList).map .depth
  | .word arg =>
    if arg = "--no-globals" then some .hideGlobals
    else if arg = "--tui" then some .viewer
    else match depthValue? arg.toList with
      | some value => (positive? value).map .depth
      | none => if isOption arg then none else some (.file arg)

def Settings.apply (s : Settings) : Setting → Settings
  | .depth n => { s with depth := some n }
  | .hideGlobals => { s with showGlobals := false }
  | .viewer => { s with viewer := true }
  | .file path => { s with file := some path }

theorem flatMap_args_groups (args : List String) : (groups args).flatMap Group.args = args := by
  fun_induction groups args with
  | case1 => rfl
  | case2 arg => rfl
  | case3 value rest ih => simp [Group.args, ih]
  | case4 arg value rest harg ih => simp [Group.args, ih]

/-- Only at the end can a flag stand without a value. -/
theorem ne_depthFlag_of_groups {args : List String} {before after : List Group} {g : Group}
    (h : groups args = before ++ g :: after) : ∀ g' ∈ before, g' ≠ .word depthFlag := by
  fun_induction groups args generalizing before with
  | case1 => simp at h
  | case2 arg =>
    have hnil : before = [] := by
      cases before with
      | nil => rfl
      | cons g' before => simp at h
    simp [hnil]
  | case3 value rest ih =>
    cases before with
    | nil => simp
    | cons g' before =>
      obtain ⟨rfl, hrest⟩ := List.cons.inj h
      exact List.forall_mem_cons.2 ⟨by simp, ih hrest⟩
  | case4 arg value rest harg ih =>
    cases before with
    | nil => simp
    | cons g' before =>
      obtain ⟨rfl, hrest⟩ := List.cons.inj h
      exact List.forall_mem_cons.2 ⟨by simpa using harg, ih hrest⟩

/-! ## Reading groups -/

/-- There is no file yet where one is to be set. -/
def Settings.Admits (s : Settings) (x : Setting) : Prop := ∀ path, x = .file path → s.file = none

section

variable {s s' : Settings} {rest : List String} {g : Group}

theorem scan_depthFlag (s : Settings) (value : String) (rest : List String) :
    scan s (depthFlag :: value :: rest) =
      match depth depthFlag value.toList with
      | .ok n => scan { s with depth := some n } rest
      | .error e => .error e := by
  cases hdepth : depth depthFlag value.toList with
  | ok n =>
    rw [scan, if_neg (by decide), if_neg (by decide), if_neg (by decide), if_pos rfl, hdepth]
  | error e =>
    rw [scan, if_neg (by decide), if_neg (by decide), if_neg (by decide), if_pos rfl, hdepth]

theorem scan_pair {value : String} :
    scan s (depthFlag :: value :: rest) = .ok (some s') ↔
      ∃ n, positive? value.toList = some n ∧
        scan { s with depth := some n } rest = .ok (some s') := by
  rw [scan_depthFlag]
  unfold depth
  cases positive? value.toList <;> simp

/-- An argument with a joined value is none of the other options. -/
theorem ne_of_depthValue? {arg other : String} {value : List Char}
    (h : depthValue? arg.toList = some value) (hother : depthValue? other.toList = none) :
    arg ≠ other := by
  rintro rfl
  rw [h] at hother
  cases hother

theorem scan_joined {value : List Char} {arg : String} (h : depthValue? arg.toList = some value)
    (s : Settings) (rest : List String) :
    scan s (arg :: rest) =
      match depth depthFlag value with
      | .ok n => scan { s with depth := some n } rest
      | .error e => .error e := by
  have hne {other : String} (hother : depthValue? other.toList = none) : arg ≠ other :=
    ne_of_depthValue? h hother
  rw [scan.eq_def]
  dsimp only
  rw [if_neg (not_or.2 ⟨hne (by decide), hne (by decide)⟩), if_neg (hne (by decide)),
    if_neg (hne (by decide)), if_neg (hne (by decide))]
  cases hdepth : depth depthFlag value with
  | ok n => simp only [h, hdepth]
  | error e => simp only [h, hdepth]

theorem setting?_help {arg : String} (h : arg = "-h" ∨ arg = "--help") :
    (Group.word arg).setting? = none := by
  rcases h with rfl | rfl <;> decide

theorem scan_word {arg : String} (harg : arg ≠ depthFlag) :
    scan s (arg :: rest) = .ok (some s') ↔
      ∃ x, (Group.word arg).setting? = some x ∧ s.Admits x ∧
        scan (s.apply x) rest = .ok (some s') := by
  by_cases hhelp : arg = "-h" ∨ arg = "--help"
  · rw [scan.eq_def, setting?_help hhelp]
    simp [hhelp]
  by_cases hhide : arg = "--no-globals"
  · rw [scan.eq_def]
    simp [hhide, Group.setting?, Settings.Admits, Settings.apply]
  by_cases hviewer : arg = "--tui"
  · rw [scan.eq_def]
    simp [hviewer, Group.setting?, Settings.Admits, Settings.apply]
  simp only [Group.setting?, if_neg hhide, if_neg hviewer]
  cases hvalue : depthValue? arg.toList with
  | some value =>
    rw [scan_joined hvalue]
    cases hn : positive? value <;> simp [depth, hn, Settings.Admits, Settings.apply]
  | none =>
    rw [scan.eq_def]
    simp only [if_neg hhelp, if_neg hhide, if_neg hviewer, if_neg harg, hvalue]
    by_cases hoption : isOption arg = true
    · simp [hoption]
    · cases hfile : s.file <;> simp [hoption, hfile, Settings.Admits, Settings.apply]

/-- A group is read if it sets something that can be set. -/
theorem scan_group (hg : g ≠ .word depthFlag) :
    scan s (g.args ++ rest) = .ok (some s') ↔
      ∃ x, g.setting? = some x ∧ s.Admits x ∧ scan (s.apply x) rest = .ok (some s') := by
  cases g with
  | pair value =>
    have hpair : (Group.pair value).args ++ rest = depthFlag :: value :: rest := rfl
    rw [hpair, scan_pair, Group.setting?]
    cases positive? value.toList <;> simp [Settings.Admits, Settings.apply]
  | word arg => exact scan_word fun harg => hg (congrArg Group.word harg)

end

/-- A flag without a value is never accepted. -/
theorem ne_depthFlag_of_scan {s s' : Settings} {args : List String}
    (h : scan s args = .ok (some s')) : ∀ g ∈ groups args, g ≠ .word depthFlag := by
  fun_induction groups args generalizing s with
  | case1 => simp
  | case2 arg =>
    rw [List.forall_mem_singleton]
    rintro hflag
    obtain rfl : arg = depthFlag := Group.word.inj hflag
    simp [scan, depthFlag] at h
  | case3 value rest ih =>
    obtain ⟨n, -, hrest⟩ := scan_pair.1 h
    exact List.forall_mem_cons.2 ⟨by simp, ih hrest⟩
  | case4 arg value rest harg ih =>
    obtain ⟨x, -, -, hrest⟩ := (scan_word harg).1 h
    exact List.forall_mem_cons.2 ⟨by simpa using harg, ih hrest⟩

/-! ## What is collected -/

/-- Of the depths and files the last one counts; flags are raised once and for all. -/
theorem foldl_apply (xs : List Setting) (s : Settings) :
    xs.foldl Settings.apply s =
      { depth := (xs.filterMap Setting.depth?).getLast?.or s.depth
        showGlobals := s.showGlobals && !decide (.hideGlobals ∈ xs)
        viewer := s.viewer || decide (.viewer ∈ xs)
        file := (xs.filterMap Setting.file?).getLast?.or s.file } := by
  induction xs generalizing s with
  | nil => simp
  | cons x xs ih =>
    rw [List.foldl_cons, ih]
    cases x with
    | depth n =>
      cases h : (xs.filterMap Setting.depth?).getLast? <;>
        simp [Settings.apply, Setting.depth?, Setting.file?, List.getLast?_cons, h]
    | hideGlobals => simp [Settings.apply, Setting.depth?, Setting.file?]
    | viewer => simp [Settings.apply, Setting.depth?, Setting.file?]
    | file path =>
      cases h : (xs.filterMap Setting.file?).getLast? <;>
        simp [Settings.apply, Setting.depth?, Setting.file?, List.getLast?_cons, h]

theorem admits_iff {s : Settings} {x : Setting} {n : Nat} :
    s.Admits x ∧ (s.apply x).file.toList.length + n ≤ 1 ↔
      s.file.toList.length + (x.file?.toList.length + n) ≤ 1 := by
  cases x with
  | file path =>
    cases hfile : s.file with
    | none => simp [Settings.Admits, Settings.apply, Setting.file?, hfile]
    | some path' =>
      simp only [Settings.Admits, Setting.file?, hfile, Option.toList_some, List.length_singleton]
      constructor
      · rintro ⟨hnone, -⟩
        cases hnone path rfl
      · omega
  | _ => simp [Settings.Admits, Settings.apply, Setting.file?]

def settings (gs : List Group) : List Setting := gs.filterMap Group.setting?

theorem settings_cons (g : Group) (gs : List Group) :
    settings (g :: gs) = g.setting?.toList ++ settings gs := by
  rw [settings, List.filterMap_cons]
  cases g.setting? <;> rfl

/-- Groups are accepted if each of them sets something and there is at most one file. -/
theorem scan_ok_iff {gs : List Group} (hgs : ∀ g ∈ gs, g ≠ .word depthFlag)
    {s s' : Settings} :
    scan s (gs.flatMap Group.args) = .ok (some s') ↔
      (∀ g ∈ gs, g.setting?.isSome) ∧
        s.file.toList.length + ((settings gs).filterMap Setting.file?).length ≤ 1 ∧
        (settings gs).foldl Settings.apply s = s' := by
  induction gs generalizing s with
  | nil =>
    have hle : s.file.toList.length ≤ 1 := by cases s.file <;> simp
    simp [scan, settings, hle]
  | cons g gs ih =>
    rw [List.forall_mem_cons] at hgs
    rw [List.flatMap_cons, scan_group hgs.1, settings_cons, List.forall_mem_cons]
    cases hx : g.setting? with
    | none => simp
    | some x =>
      have hfiles : ((some x).toList ++ settings gs).filterMap Setting.file? =
          x.file?.toList ++ (settings gs).filterMap Setting.file? := by
        cases x <;> rfl
      rw [hfiles, List.length_append, ← admits_iff]
      simp only [Option.some.injEq, exists_eq_left', ih hgs.2]
      constructor
      · rintro ⟨hadmits, hsome, hle, hfold⟩
        exact ⟨⟨rfl, hsome⟩, ⟨hadmits, hle⟩, hfold⟩
      · rintro ⟨⟨-, hsome⟩, ⟨hadmits, hle⟩, hfold⟩
        exact ⟨hadmits, hsome, hle, hfold⟩

theorem setting?_of_depthText? {g : Group} {text : List Char} (h : g.depthText? = some text) :
    g.setting? = (positive? text).map .depth := by
  cases g with
  | pair value =>
    obtain rfl := Option.some.inj h
    rfl
  | word arg =>
    have hvalue : depthValue? arg.toList = some text := h
    rw [Group.setting?, if_neg (ne_of_depthValue? hvalue (by decide)),
      if_neg (ne_of_depthValue? hvalue (by decide)), hvalue]

theorem bind_depth?_setting? (g : Group) :
    g.setting?.bind Setting.depth? = g.depthText?.bind positive? := by
  cases htext : g.depthText? with
  | some text =>
    rw [setting?_of_depthText? htext]
    cases hn : positive? text <;> simp [Setting.depth?, hn]
  | none =>
    cases g with
    | pair value => cases htext
    | word arg =>
      have hvalue : depthValue? arg.toList = none := htext
      rw [Group.setting?, hvalue]
      dsimp only
      split_ifs <;> rfl

/-- The depths that are set are the values of the depth settings, in order. -/
theorem filterMap_depth?_settings (gs : List Group) :
    (settings gs).filterMap Setting.depth? =
      (gs.filterMap Group.depthText?).filterMap positive? := by
  rw [settings, List.filterMap_filterMap, List.filterMap_filterMap]
  exact List.filterMap_congr fun g _ => bind_depth?_setting? g

theorem eq_of_perm_of_length_le {α : Type} {l l' : List α} (h : l.Perm l') (hle : l.length ≤ 1) :
    l = l' := by
  match l, hle with
  | [], _ => exact h.nil_eq
  | [a], _ => exact (List.perm_singleton.1 h.symm).symm

/-- Groups may stand in any order that keeps the order of the depth settings. -/
theorem scan_perm {gs gs' : List Group} (hgs : ∀ g ∈ gs, g ≠ .word depthFlag)
    (hperm : gs.Perm gs')
    (hdepth : gs'.filterMap Group.depthText? = gs.filterMap Group.depthText?) {s s' : Settings}
    (h : scan s (gs.flatMap Group.args) = .ok (some s')) :
    scan s (gs'.flatMap Group.args) = .ok (some s') := by
  obtain ⟨hsome, hle, hfold⟩ := (scan_ok_iff hgs).1 h
  have hsettings : (settings gs).Perm (settings gs') := hperm.filterMap _
  have hfile : (settings gs).filterMap Setting.file? = (settings gs').filterMap Setting.file? :=
    eq_of_perm_of_length_le (hsettings.filterMap _) (by omega)
  refine (scan_ok_iff fun g hg => hgs g (hperm.mem_iff.2 hg)).2 ⟨fun g hg => ?_, ?_, ?_⟩
  · exact hsome g (hperm.mem_iff.2 hg)
  · rwa [← hfile]
  · rw [← hfold, foldl_apply, foldl_apply, filterMap_depth?_settings, filterMap_depth?_settings,
      hdepth, hfile]
    simp only [hsettings.mem_iff]

theorem depthValue?_joined (value : String) :
    depthValue? (depthFlag ++ "=" ++ value).toList = some value.toList := by
  have htoList : (depthFlag ++ "=" ++ value).toList = (depthFlag ++ "=").toList ++ value.toList :=
    String.toList_append
  unfold depthValue?
  dsimp only
  rw [htoList, if_pos (List.isPrefixOf_iff_prefix.2 (List.prefix_append ..)), List.drop_left]

/-- Behind groups that are read alike, the reader does what it does without them. -/
theorem scan_flatMap_congr {gs : List Group} (hgs : ∀ g ∈ gs, g ≠ .word depthFlag)
    {l l' : List String} (h : ∀ s, scan s l = scan s l') (s : Settings) :
    scan s (gs.flatMap Group.args ++ l) = scan s (gs.flatMap Group.args ++ l') := by
  induction gs generalizing s with
  | nil => exact h s
  | cons g gs ih =>
    rw [List.forall_mem_cons] at hgs
    rw [List.flatMap_cons, List.append_assoc, List.append_assoc]
    cases g with
    | pair value =>
      simp only [Group.args, List.cons_append, List.nil_append, scan_depthFlag, ih hgs.2]
    | word arg =>
      have harg : arg ≠ depthFlag := fun harg => hgs.1 (congrArg Group.word harg)
      simp only [Group.args, List.cons_append, List.nil_append, scan.eq_def _ (arg :: _),
        if_neg harg, ih hgs.2]

/-- The value of a depth setting may be joined to its flag. -/
theorem parse_joined {args : List String} {before after : List Group} {value : String}
    (h : groups args = before ++ .pair value :: after) (environment : Option String) :
    parse ((before ++ .word (depthFlag ++ "=" ++ value) :: after).flatMap Group.args) environment =
      parse args environment := by
  have hrest (s : Settings) :
      scan s ((Group.word (depthFlag ++ "=" ++ value) :: after).flatMap Group.args) =
        scan s ((Group.pair value :: after).flatMap Group.args) := by
    have hjoined := scan_joined (depthValue?_joined value) s (after.flatMap Group.args)
    exact hjoined.trans (scan_depthFlag s value _).symm
  have hscan : scan {} ((before ++ .word (depthFlag ++ "=" ++ value) :: after).flatMap Group.args) =
      scan {} args := by
    rw [← flatMap_args_groups args, h, List.flatMap_append, List.flatMap_append]
    exact scan_flatMap_congr (ne_depthFlag_of_groups h) hrest {}
  rw [parse, parse, hscan]

/-! ## Runs -/

theorem parse_eq_run_iff {args : List String} {environment : Option String} {o : Options}
    {file : Option String} :
    parse args environment = .ok (.run o file) ↔
      ∃ s, scan {} args = .ok (some s) ∧ complete s environment = .ok (.run o file) := by
  rw [parse]
  split <;> simp_all

theorem complete_ok {s : Settings} {environment : Option String} {o : Options}
    {file : Option String} (h : complete s environment = .ok (.run o file)) :
    effectiveDepth s.depth environment = .ok o.limit ∧ o.echo = !o.viewer ∧
      (o.viewer = true → file.isSome) := by
  unfold complete at h
  split at h
  · cases h
  next limit hlimit =>
  dsimp only at h
  split at h
  · next hviewer =>
    split at h
    · cases h
    · next hfile =>
      cases h
      exact ⟨hlimit, by simp [hviewer], fun _ => Option.isSome_iff_ne_none.2 (by simpa using hfile)⟩
  · next hviewer =>
    cases h
    exact ⟨hlimit, by simp [hviewer], fun hv => absurd hv hviewer⟩

theorem getLast?_filterMap_of_isSome {α β : Type} {f : α → Option β} {l : List α}
    (h : ∀ a ∈ l, (f a).isSome) : (l.filterMap f).getLast? = l.getLast?.bind f := by
  rcases List.eq_nil_or_concat l with rfl | ⟨l, a, rfl⟩
  · rfl
  · obtain ⟨b, hb⟩ := Option.isSome_iff_exists.1 (h a (by simp))
    simp [List.filterMap_append, hb]

/-- The limit that a run asks for: that of the last depth setting, else that of the environment,
else the default. -/
def AsksLimit (texts : List (List Char)) (environment : Option String) (limit : Nat) : Prop :=
  match texts.getLast?, environment with
  | some text, _ => Denotes text limit
  | none, some value => Denotes value.toList limit
  | none, none => limit = defaultDepth

theorem AsksLimit.pos {texts : List (List Char)} {environment : Option String} {limit : Nat}
    (h : AsksLimit texts environment limit) : 1 ≤ limit := by
  have hpos {cs : List Char} (hcs : Denotes cs limit) : 1 ≤ limit := by
    obtain ⟨ds, -, -, -, -, hpos, -⟩ := hcs
    exact hpos
  unfold AsksLimit at h
  split at h
  · exact hpos h
  · exact hpos h
  · rw [h]
    decide

theorem asksLimit_of_scan {gs : List Group} {s : Settings} {environment : Option String}
    {limit : Nat} (hgs : ∀ g ∈ gs, g ≠ .word depthFlag)
    (h : scan {} (gs.flatMap Group.args) = .ok (some s))
    (hlimit : effectiveDepth s.depth environment = .ok limit) :
    AsksLimit (gs.filterMap Group.depthText?) environment limit := by
  obtain ⟨hsome, -, rfl⟩ := (scan_ok_iff hgs).1 h
  have htexts : ∀ text ∈ gs.filterMap Group.depthText?, (positive? text).isSome := by
    intro text htext
    obtain ⟨g, hg, hgtext⟩ := List.mem_filterMap.1 htext
    have := hsome g hg
    rwa [setting?_of_depthText? hgtext, Option.isSome_map] at this
  have hvalue {flag : String} {cs : List Char} (hdepth : depth flag cs = .ok limit) :
      Denotes cs limit := by
    rw [← positive?_eq_some_iff]
    unfold depth at hdepth
    split at hdepth <;> simp_all
  rw [foldl_apply, filterMap_depth?_settings, getLast?_filterMap_of_isSome htexts] at hlimit
  unfold AsksLimit
  cases hlast : (gs.filterMap Group.depthText?).getLast? with
  | some text =>
    have htext := htexts text (List.mem_of_getLast? hlast)
    obtain ⟨n, hn⟩ := Option.isSome_iff_exists.1 htext
    simp only [hlast, Option.bind_some, hn, Option.some_or, effectiveDepth,
      Except.ok.injEq] at hlimit
    rw [← hlimit]
    exact positive?_eq_some_iff.1 hn
  | none =>
    simp only [hlast, Option.bind_none, Option.none_or] at hlimit
    cases environment with
    | some value => exact hvalue hlimit
    | none => exact (Except.ok.inj hlimit).symm

/-- What the order and the writing of arguments mean. The value of a depth setting may stand behind
its flag or be joined to it, with the same result, whatever that is. If the arguments ask for a run,
their groups may stand in any order that keeps the order of the depth settings, and ask for the same
run; its limit is at least one and is that of the last depth setting, else that of the environment,
else the default, its output is echoed just if it opens no viewer, and a viewer has a file. -/
theorem parse_by_groups (args : List String) (environment : Option String) :
    (∀ before value after, groups args = before ++ .pair value :: after →
      parse ((before ++ .word (depthFlag ++ "=" ++ value) :: after).flatMap Group.args)
        environment = parse args environment) ∧
    ∀ o file, parse args environment = .ok (.run o file) →
      (∀ gs, (groups args).Perm gs →
        gs.filterMap Group.depthText? = (groups args).filterMap Group.depthText? →
          parse (gs.flatMap Group.args) environment = .ok (.run o file)) ∧
      1 ≤ o.limit ∧ AsksLimit ((groups args).filterMap Group.depthText?) environment o.limit ∧
      o.echo = !o.viewer ∧ (o.viewer = true → file.isSome) := by
  refine ⟨fun before value after h => parse_joined h environment, fun o file hrun => ?_⟩
  obtain ⟨s, hscan, hcomplete⟩ := parse_eq_run_iff.1 hrun
  have hgs := ne_depthFlag_of_scan hscan
  rw [← flatMap_args_groups args] at hscan
  obtain ⟨hlimit, hecho, hfile⟩ := complete_ok hcomplete
  have hasks := asksLimit_of_scan hgs hscan hlimit
  refine ⟨fun gs hperm hdepth => ?_, hasks.pos, hasks, hecho, hfile⟩
  exact parse_eq_run_iff.2 ⟨s, scan_perm hgs hperm hdepth hscan, hcomplete⟩

/-- Two depths, written in both ways, around a flag and a file. -/
theorem parse_by_groups_mixed :
    let args := ["--max-depth", " 7", "--tui", "a.lt", "--max-depth=+09"]
    let asked : Except UsageFault Action :=
      .ok (.run { limit := 9, echo := false, viewer := true } (some "a.lt"))
    let gs : List Group := [.word "a.lt", .pair " 7", .word "--max-depth=+09", .word "--tui"]
    groups args = [] ++ .pair " 7" :: [.word "--tui", .word "a.lt", .word "--max-depth=+09"] ∧
      parse args none = asked ∧ (groups args).Perm gs ∧
      gs.filterMap Group.depthText? = (groups args).filterMap Group.depthText? ∧
      parse ["--max-depth= 7", "--tui", "a.lt", "--max-depth=+09"] none = asked ∧
      parse ["a.lt", "--max-depth", " 7", "--max-depth=+09", "--tui"] none = asked ∧
      Denotes ['+', '0', '9'] 9 := by
  intro args asked gs
  have hgroups : groups args =
      [] ++ .pair " 7" :: [.word "--tui", .word "a.lt", .word "--max-depth=+09"] := by
    decide +kernel
  have hrun : parse args none = asked := by decide +kernel
  have hperm : (groups args).Perm gs := by decide +kernel
  have hdepth : gs.filterMap Group.depthText? = (groups args).filterMap Group.depthText? := by
    decide +kernel
  obtain ⟨hjoined, hruns⟩ := parse_by_groups args none
  obtain ⟨hany, -, hasks, -⟩ := hruns _ _ hrun
  have hlast : ((groups args).filterMap Group.depthText?).getLast? = some ['+', '0', '9'] := by
    decide +kernel
  unfold AsksLimit at hasks
  rw [hlast] at hasks
  exact ⟨hgroups, hrun, hperm, hdepth, (hjoined _ _ _ hgroups).trans hrun, hany gs hperm hdepth,
    hasks⟩

end ScopeScript.CommandLine
