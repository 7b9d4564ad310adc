import ScopeScript.Prompt

/-!
# Sessions at the prompt

A submission is a program together with the way it is typed in: behind a `>`, with a closing line,
or as a line of its own. The input of a session is cut into the lines that were typed
(`Entry.ofInput_typed`), the prompt reads exactly the submitted program from the lines of a
submission and leaves the others alone (`Submission.readProgram_lines`), tells what its execution
gave (`respond_eq`), and goes on from a clean state (`converse_eq`). So a session shows what
sessions with one program each show (`session_eq`).
-/

namespace ScopeScript.Prompt

def encode (cs : List Char) : List UInt8 := cs.flatMap String.utf8EncodeChar

theorem encode_append (cs ds : List Char) : encode (cs ++ ds) = encode cs ++ encode ds :=
  List.flatMap_append

/-- The loop that lists bytes is at the byte of number `i`, with `n` bytes to go. -/
theorem toList_loop {bytes : ByteArray} {n i : Nat} (h : i + n = bytes.size) (read : List UInt8) :
    ByteArray.toList.loop bytes i read = read.reverse ++ bytes.data.toList.drop i := by
  have hsize : bytes.data.toList.length = bytes.size := rfl
  induction n generalizing i read with
  | zero =>
    rw [ByteArray.toList.loop, if_neg (by omega), List.drop_of_length_le (by omega),
      List.append_nil]
  | succ n ih =>
    have hi : i < bytes.data.toList.length := by omega
    have hget : bytes.get! i = bytes.data.toList[i] := getElem!_pos bytes.data i hi
    rw [ByteArray.toList.loop, if_pos (by omega), ih (by omega), List.drop_eq_getElem_cons hi, hget]
    simp

theorem toList_toUTF8 (s : String) : s.toUTF8.toList = encode s.toList := by
  have hbytes : s.toUTF8 = (encode s.toList).toByteArray := String.utf8Encode_toList.symm
  rw [hbytes, ByteArray.toList, toList_loop (Nat.zero_add _), List.toList_data_toByteArray]
  rfl

theorem fromUTF8?_encode (cs : List Char) :
    String.fromUTF8? ⟨(encode cs).toArray⟩ = some (String.ofList cs) := by
  have hbytes : (⟨(encode cs).toArray⟩ : ByteArray) = (String.ofList cs).toByteArray := by
    rw [String.toByteArray_ofList]
    apply ByteArray.ext
    rw [List.utf8Encode, List.data_toByteArray]
    rfl
  rw [hbytes, String.fromUTF8?, dif_pos (String.ofList cs).isValidUTF8]
  rfl

theorem mod_of_eq_newline {n : Nat} (h : (10 : UInt8) = UInt8.ofNat n) : n % 256 = 10 := by
  have hn := congrArg UInt8.toNat h
  simpa using hn.symm

/-- Only a newline has the byte of a newline: the bytes of a longer character are all above. -/
theorem newline_notMem_utf8EncodeChar {c : Char} (h : c ≠ '\n') :
    (10 : UInt8) ∉ String.utf8EncodeChar c := by
  have hval : c.val.toNat ≠ 10 := fun hc => h (Char.ext (UInt32.toNat_inj.1 hc))
  intro hmem
  simp only [String.utf8EncodeChar] at hmem
  split at hmem
  · have := mod_of_eq_newline (List.mem_singleton.1 hmem)
    omega
  · split at hmem
    · simp only [List.mem_cons, List.not_mem_nil, or_false] at hmem
      rcases hmem with hb | hb <;> have := mod_of_eq_newline hb <;> omega
    · split at hmem
      · simp only [List.mem_cons, List.not_mem_nil, or_false] at hmem
        rcases hmem with hb | hb | hb <;> have := mod_of_eq_newline hb <;> omega
      · simp only [List.mem_cons, List.not_mem_nil, or_false] at hmem
        rcases hmem with hb | hb | hb | hb <;> have := mod_of_eq_newline hb <;> omega

theorem newline_notMem_encode {cs : List Char} (h : '\n' ∉ cs) : (10 : UInt8) ∉ encode cs := by
  intro hmem
  obtain ⟨c, hc, hb⟩ := List.mem_flatMap.1 hmem
  exact newline_notMem_utf8EncodeChar (fun e => h (e ▸ hc)) hb

/-! ## Lines that are typed in -/

/-- A line can be typed in: it has no line end in it and no carriage return at its end. -/
def Typable (line : List Char) : Prop := '\n' ∉ line ∧ line.getLast? ≠ some '\r'

/-- The text of lines that are typed in. -/
def typed (lines : List (List Char)) : List Char := lines.flatMap (· ++ ['\n'])

namespace Entry

def typed (line : List Char) : Entry := ⟨(encode (line ++ ['\n'])).length, some line⟩

theorem strip_typed {line : List Char} (h : Typable line) : strip (line ++ ['\n']) = line := by
  obtain ⟨hnewline, hreturn⟩ := h
  rw [strip, Text.dropEndWhile, List.reverse_append, List.reverse_singleton, List.singleton_append,
    List.dropWhile_cons_of_pos (by decide)]
  rcases List.eq_nil_or_concat line with rfl | ⟨cs, c, rfl⟩
  · rfl
  · have hc : c ≠ '\n' := fun e => hnewline (by simp [e])
    have hc' : c ≠ '\r' := fun e => hreturn (by simp [e])
    rw [List.concat_eq_append, List.reverse_append, List.reverse_singleton, List.singleton_append,
      List.dropWhile_cons_of_neg (by simp [hc, hc'])]
    simp

theorem ofBytes_typed {line : List Char} (h : Typable line) :
    ofBytes (encode (line ++ ['\n'])) = typed line := by
  rw [ofBytes, fromUTF8?_encode, Option.map_some, String.toList_ofList, strip_typed h]
  rfl

/-- The bytes up to the first newline are those of one line. -/
theorem split_line {line : List UInt8} (h : (10 : UInt8) ∉ line) (start rest : List UInt8) :
    split start (line ++ 10 :: rest) =
      ofBytes (start.reverse ++ line ++ [10]) :: split [] rest := by
  induction line generalizing start with
  | nil => simp [split]
  | cons b bs ih =>
    rw [List.mem_cons, not_or] at h
    rw [List.cons_append, split, if_neg (Ne.symm h.1), ih h.2]
    simp

theorem split_typed {lines : List (List Char)} (h : ∀ line ∈ lines, Typable line) :
    split [] (encode (Prompt.typed lines)) = lines.map typed := by
  induction lines with
  | nil => rfl
  | cons line lines ih =>
    have hline := h line List.mem_cons_self
    have hrest : encode (Prompt.typed (line :: lines)) =
        encode line ++ 10 :: encode (Prompt.typed lines) := by
      rw [Prompt.typed, List.flatMap_cons, encode_append, encode_append, List.append_assoc]
      rfl
    rw [hrest, split_line (newline_notMem_encode hline.1),
      ih fun l hl => h l (List.mem_cons_of_mem _ hl), List.map_cons, ← ofBytes_typed hline,
      encode_append]
    rfl

theorem ofInput_typed {lines : List (List Char)} (h : ∀ line ∈ lines, Typable line) {s : String}
    (hs : s.toList = Prompt.typed lines) : ofInput s.toUTF8 = lines.map typed := by
  rw [ofInput, toList_toUTF8, hs, split_typed h]

end Entry

/-! ## Reading one program -/

/-- What is shown before does not matter to what is read. -/
theorem readProgram_shown (state : State) (shown : String) (es : List Entry) :
    readProgram state shown es = { readProgram state "" es with
      shown := shown ++ (readProgram state "" es).shown } := by
  induction es generalizing state shown with
  | nil =>
    unfold readProgram
    cases feed state none <;> simp
  | cons e es ih =>
    unfold readProgram
    cases e.text with
    | none => simp
    | some line =>
      dsimp only
      cases feed state (some line) with
      | quit => simp
      | run source => simp
      | gather more next =>
        dsimp only
        rw [ih next (shown ++ opening state ++ String.ofList more),
          ih next ("" ++ opening state ++ String.ofList more)]
        simp [String.append_assoc]

section

variable {state next : State} {line source more : List Char}

theorem readProgram_run (h : feed state (some line) = .run source) (shown : String)
    (es : List Entry) : readProgram state shown (.typed line :: es) =
      ⟨.ok (some source), shown ++ opening state, es⟩ := by
  simp only [readProgram, Entry.typed, h]

theorem readProgram_gather (h : feed state (some line) = .gather more next) (shown : String)
    (es : List Entry) : readProgram state shown (.typed line :: es) =
      readProgram next (shown ++ opening state ++ String.ofList more) es := by
  rw [readProgram]
  simp only [Entry.typed, h]

end

/-! ## What is told of an execution -/

/-- Lines, each with its line end. -/
def written (lines : List String) : String := String.join (lines.map (· ++ "\n"))

theorem written_cons (l : String) (ls : List String) :
    written (l :: ls) = l ++ "\n" ++ written ls :=
  String.join_cons

theorem written_append (ls ms : List String) : written (ls ++ ms) = written ls ++ written ms := by
  simp [written]

/-- Newlines between the lines and one at the end. -/
theorem intercalate_newline (l : String) (ls : List String) :
    "\n".intercalate (l :: ls) ++ "\n" = written (l :: ls) := by
  induction ls generalizing l with
  | nil => simp [written]
  | cons m ls ih => rw [String.intercalate_cons_cons, String.append_assoc, ih, written_cons l]

namespace Settings

variable (s : Settings)

def inked (ink : Report.Ink) (t : String) : String := if s.colour then s.stylist.paint ink t else t

def inkedBold (ink : Report.Ink) (t : String) : String :=
  if s.colour then s.stylist.paintBold ink t else t

def faultLines (d : Diagnostic) : List String :=
  [s.inkedBold .red d.stage.header,
    s.inked .darkGrey (d.label ++ ": Line " ++ String.ofList (Decimal.digits d.line)),
    d.lineText,
    s.inkedBold .red d.caret,
    s.inked .red d.message]

def globalsLines (bs : List (String × Value)) : List String :=
  ["", s.inked .yellow "GLOBAL MEMORY:"] ++
    bs.map (fun b => s.inked .cyan b.1 ++ " = " ++ s.inked .white b.2.display) ++ [""]

/-- What is told of the execution of a program, line by line: what was printed, the fault if there
is one, and the global bindings if they are wanted. -/
def told (source : String) (e : Execution) : List String :=
  [""] ++ e.outputText ++
    (match e.fault with
      | none => []
      | some f => s.faultLines (f.diagnostic source "stdin")) ++
    if s.showGlobals then s.globalsLines e.globals else []

theorem diagnostic_eq (d : Diagnostic) :
    Report.diagnostic s.stylist s.colour d = written (s.faultLines d) := by
  unfold Report.diagnostic faultLines inked inkedBold
  cases s.colour
  · exact intercalate_newline _ _
  · exact intercalate_newline _ _

theorem binding_eq (b : String × Value) : Report.binding s.stylist s.colour b =
    s.inked .cyan b.1 ++ " = " ++ s.inked .white b.2.display ++ "\n" := by
  unfold Report.binding inked
  cases s.colour <;> rfl

theorem globals_eq (bs : List (String × Value)) :
    Report.globals s.stylist s.colour bs = written (s.globalsLines bs) := by
  have hbindings : bs.map (Report.binding s.stylist s.colour) =
      (bs.map fun b => s.inked .cyan b.1 ++ " = " ++ s.inked .white b.2.display).map
        (· ++ "\n") := by
    rw [List.map_map]
    exact List.map_congr_left fun b _ => s.binding_eq b
  rw [Report.globals, hbindings, globalsLines, written_append, written_append, written_cons,
    written_cons]
  simp [written, inked, Report.globalsHeading, String.append_assoc]

/-- The prompt executes the program and tells what came of it. -/
theorem respond_eq (source : String) :
    respond s source = written (s.told source (execute source s.limit)) := by
  rw [respond, told, written_append, written_append, written_append]
  generalize execute source s.limit = e
  congr 1
  · congr 1
    cases e.fault with
    | none => rfl
    | some f => exact s.diagnostic_eq _
  · cases s.showGlobals with
    | false => rfl
    | true => exact s.globals_eq e.globals

end Settings

/-- A conversation reads one program after the other, each from a clean state, and responds to it,
until the user quits. -/
theorem converse_eq (s : Settings) (state : State) (shown : String) (es : List Entry) :
    converse s state shown es =
      match (readProgram state shown es).result with
      | .error e => ⟨(readProgram state shown es).shown, some e⟩
      | .ok none => ⟨(readProgram state shown es).shown, none⟩
      | .ok (some source) =>
        converse s .ready ((readProgram state shown es).shown ++ respond s (String.ofList source))
          (readProgram state shown es).rest := by
  induction es generalizing state shown with
  | nil =>
    unfold converse readProgram
    cases feed state none with
    | run source => rfl
    | _ => rfl
  | cons e es ih =>
    rw [converse, readProgram]
    cases e.text with
    | none => rfl
    | some line =>
      dsimp only
      cases feed state (some line) with
      | gather more next => exact ih next _
      | _ => rfl

/-- In a conversation over the lines these programs are executed, one after the other until the user
quits, and this is shown: for each program what is shown while it is read, then what is told of its
execution. -/
inductive Converses (s : Settings) : List Entry → List String → String → Prop where
  | quit {es rest : List Entry} {shown : String} :
      readProgram .ready "" es = ⟨.ok none, shown, rest⟩ → Converses s es [] shown
  | next {es rest : List Entry} {source shown later : String} {sources : List String} :
      readProgram .ready "" es = ⟨.ok (some source.toList), shown, rest⟩ →
      Converses s rest sources later →
      Converses s es (source :: sources)
        (shown ++ written (s.told source (execute source s.limit)) ++ later)

theorem converse_of_converses {s : Settings} {es : List Entry} {sources : List String}
    {out : String} (h : Converses s es sources out) (shown : String) :
    converse s .ready shown es = ⟨shown ++ out, none⟩ := by
  induction h generalizing shown with
  | quit hread => rw [converse_eq, readProgram_shown, hread]
  | next hread _ ih =>
    rw [converse_eq, readProgram_shown, hread]
    dsimp only
    rw [ih, String.ofList_toList, s.respond_eq]
    simp only [String.append_assoc]

/-! ## Submissions -/

/-- What asks for a line by its number. -/
def numbered (n : Nat) : String := " " ++ String.ofList (Decimal.digits n) ++ "   "

/-- How a program is typed in: behind a `>` and with a closing line, or as a line of its own. -/
inductive Form where
  | framed
  | bare
  deriving DecidableEq, Repr

structure Submission where
  source : String
  form : Form
  deriving DecidableEq, Repr

namespace Submission

def pieces (x : Submission) : List (List Char) := x.source.toList.splitOn '\n'

def text (x : Submission) : String :=
  match x.form with
  | .framed => ">" ++ x.source ++ "\n" ++ "exit" ++ "\n"
  | .bare => x.source ++ "\n"

/-- The program can be typed in like this. No line of it ends in a carriage return, and no line but
the first one closes it; to be a line of its own it has to be one line, with a first character that
is not blank and not `>`. -/
structure Acceptable (x : Submission) : Prop where
  ends : ∀ line ∈ x.pieces, line.getLast? ≠ some '\r'
  inner : closing ∉ x.pieces.tail
  bare : x.form = .bare → '\n' ∉ x.source.toList ∧
    ∃ c cs, x.source.toList.dropWhile Text.isBlank = c :: cs ∧ c ≠ '>'

def lines (x : Submission) : List (List Char) :=
  match x.form with
  | .framed => x.pieces.modifyHead ('>' :: ·) ++ [closing]
  | .bare => [x.source.toList]

/-- What is shown while the program is typed in. Behind a `>` its first line is shown again, and
each further line is asked for by its number, the closing one too. -/
def dialogue (x : Submission) : String :=
  match x.form with
  | .framed =>
    ">\nTYPE 'exit' TO END\n 1   " ++
      String.ofList ((x.pieces.headD []).dropWhile Text.isBlank) ++ "\n" ++
      String.join ((List.range' 2 x.pieces.length).map numbered)
  | .bare => ">"

/-- What is shown for the program: while it is typed in, and of its execution. -/
def exchange (s : Settings) (x : Submission) : String :=
  x.dialogue ++ written (s.told x.source (execute x.source s.limit))

end Submission

/-- The lines of a text, put together again. -/
theorem exists_splitOn (cs : List Char) : ∃ first others, cs.splitOn '\n' = first :: others ∧
    cs = first ++ others.flatMap ('\n' :: ·) ∧ '\n' ∉ first ∧ ∀ line ∈ others, '\n' ∉ line := by
  induction cs with
  | nil => exact ⟨[], [], rfl, rfl, by simp, by simp⟩
  | cons c cs ih =>
    obtain ⟨first, others, hsplit, hcs, hfirst, hothers⟩ := ih
    rw [List.splitOn_cons_eq_if_modifyHead, hsplit]
    by_cases hc : c = '\n'
    · refine ⟨[], first :: others, by simp [hc], ?_, by simp, ?_⟩
      · rw [List.flatMap_cons, List.nil_append, List.cons_append, ← hcs, hc]
      · simpa [hfirst] using hothers
    · refine ⟨c :: first, others, by simp [hc], ?_, ?_, hothers⟩
      · rw [List.cons_append, ← hcs]
      · simp [hfirst, Ne.symm hc]

/-- A newline after each line, or one before each line but the first and one at the end. -/
theorem typed_cons (first : List Char) (others : List (List Char)) :
    typed (first :: others) = first ++ others.flatMap ('\n' :: ·) ++ ['\n'] := by
  induction others generalizing first with
  | nil => simp [typed]
  | cons line lines ih =>
    have hmore := ih line
    simp only [typed, List.flatMap_cons, List.append_assoc, List.cons_append] at hmore ⊢
    rw [hmore]
    simp

theorem opening_instructions (first : List Char) :
    "" ++ opening .ready ++ String.ofList (instructions first) =
      ">\nTYPE 'exit' TO END\n 1   " ++ String.ofList (first.dropWhile Text.isBlank) ++ "\n" := by
  have hopening : "" ++ opening .ready ++ "\nTYPE 'exit' TO END\n 1   " =
      ">\nTYPE 'exit' TO END\n 1   " := by decide +kernel
  have hnewline : String.ofList ['\n'] = "\n" := by decide +kernel
  unfold instructions
  rw [String.ofList_append, String.ofList_append, String.ofList_toList, ← String.append_assoc,
    ← String.append_assoc, hopening, hnewline]

/-- Lines that do not close the program are added to it, up to the one that does. -/
theorem readProgram_gathering {others : List (List Char)} (h : closing ∉ others)
    (source : List Char) (n : Nat) (shown : String) (rest : List Entry) :
    readProgram (.gathering source n) shown (others.map .typed ++ .typed closing :: rest) =
      ⟨.ok (some (source ++ others.flatMap ('\n' :: ·))),
        shown ++ String.join ((List.range' (n + 1) (others.length + 1)).map numbered), rest⟩ := by
  induction others generalizing source n shown with
  | nil =>
    have hfeed : feed (.gathering source n) (some closing) = .run source := by simp [feed]
    rw [List.map_nil, List.nil_append, readProgram_run hfeed, List.flatMap_nil, List.append_nil]
    simp [opening, numbered]
  | cons line lines ih =>
    rw [List.mem_cons, not_or] at h
    have hfeed : feed (.gathering source n) (some line) =
        .gather [] (.gathering (source ++ '\n' :: line) (n + 1)) := if_neg (Ne.symm h.1)
    have hasked : String.join ((List.range' (n + 1) (lines.length + 2)).map numbered) =
        opening (.gathering source n) ++
          String.join ((List.range' (n + 2) (lines.length + 1)).map numbered) := by
      rw [List.range'_succ, List.map_cons, String.join_cons]
      rfl
    rw [List.map_cons, List.cons_append, readProgram_gather hfeed, ih h.2, List.flatMap_cons,
      List.length_cons, hasked, List.append_assoc]
    simp [String.append_assoc]

namespace Submission

variable {x : Submission}

theorem toList_text (x : Submission) : x.text.toList = typed x.lines := by
  unfold text lines
  cases x.form with
  | framed =>
    obtain ⟨first, others, hsplit, hsource, -, -⟩ := exists_splitOn x.source.toList
    have hlines : typed ((('>' :: first) :: others) ++ [closing]) =
        typed (('>' :: first) :: others) ++ typed [closing] := List.flatMap_append
    simp only [pieces, hsplit, List.modifyHead_cons, hlines, typed_cons, String.toList_append]
    rw [hsource]
    simp [closing]
  | bare => simp [typed]

theorem typable (h : x.Acceptable) : ∀ line ∈ x.lines, Typable line := by
  obtain ⟨hends, -, hbare⟩ := h
  obtain ⟨first, others, hsplit, -, hfirst, hothers⟩ := exists_splitOn x.source.toList
  unfold lines
  cases hform : x.form with
  | framed =>
    simp only [pieces, hsplit, List.forall_mem_cons] at hends
    have hhead : Typable ('>' :: first) := by
      refine ⟨by simp [hfirst], ?_⟩
      cases first with
      | nil => simp
      | cons c cs =>
        rw [List.getLast?_cons_cons]
        exact hends.1
    simp only [pieces, hsplit, List.modifyHead_cons, List.cons_append, List.forall_mem_cons,
      List.forall_mem_append, List.mem_singleton, forall_eq]
    refine ⟨hhead, fun line hline => ⟨hothers line hline, hends.2 line hline⟩, ?_⟩
    exact ⟨by decide, by decide⟩
  | bare =>
    obtain ⟨hnewline, -⟩ := hbare hform
    have hone : x.pieces = [x.source.toList] := List.splitOn_eq_singleton hnewline
    simp only [List.mem_singleton, forall_eq]
    exact ⟨hnewline, hends _ (by simp [hone])⟩

/-- The program is read from its lines, and nothing after them. -/
theorem readProgram_lines (h : x.Acceptable) (rest : List Entry) :
    readProgram .ready "" (x.lines.map .typed ++ rest) =
      ⟨.ok (some x.source.toList), x.dialogue, rest⟩ := by
  unfold lines dialogue
  cases hform : x.form with
  | framed =>
    obtain ⟨first, others, hsplit, hsource, -, -⟩ := exists_splitOn x.source.toList
    have hinner : closing ∉ others := by
      have hinner := h.inner
      rwa [pieces, hsplit, List.tail_cons] at hinner
    have hfeed : feed .ready (some ('>' :: first)) =
        .gather (instructions first) (.gathering first 1) := by
      simp only [feed, List.dropWhile_cons_of_neg (show ¬Text.isBlank '>' by decide)]
    have hlines : (x.pieces.modifyHead ('>' :: ·) ++ [closing]).map Entry.typed ++ rest =
        .typed ('>' :: first) :: (others.map .typed ++ .typed closing :: rest) := by
      simp [pieces, hsplit]
    rw [hlines, readProgram_gather hfeed, opening_instructions, readProgram_gathering hinner,
      ← hsource, pieces, hsplit, List.headD_cons, List.length_cons]
  | bare =>
    obtain ⟨-, c, cs, hstart, hc⟩ := h.bare hform
    have hfeed : feed .ready (some x.source.toList) = .run x.source.toList := by
      simp only [feed, hstart]
      split
      · next heq => cases heq
      · next heq =>
        cases heq
        exact absurd rfl hc
      · rfl
    rw [List.map_singleton, List.singleton_append, readProgram_run hfeed]
    rfl

theorem ofInput_text (h : x.Acceptable) : Entry.ofInput x.text.toUTF8 = x.lines.map .typed :=
  Entry.ofInput_typed (typable h) x.toList_text

/-- The conversation that begins with the lines of a submission. -/
theorem converses_lines (h : x.Acceptable) {s : Settings} {es : List Entry} {sources : List String}
    {later : String} (hlater : Converses s es sources later) :
    Converses s (x.lines.map .typed ++ es) (x.source :: sources) (x.exchange s ++ later) :=
  .next (readProgram_lines h es) hlater

end Submission

theorem converses_nil (s : Settings) : Converses s [] [] (opening .ready) := .quit rfl

theorem converses_all (s : Settings) {xs : List Submission} (h : ∀ x ∈ xs, x.Acceptable) :
    Converses s ((xs.flatMap (·.lines)).map .typed) (xs.map (·.source))
      (String.join (xs.map (·.exchange s)) ++ opening .ready) := by
  induction xs with
  | nil => exact converses_nil s
  | cons x xs ih =>
    have hx := h x List.mem_cons_self
    have hall := Submission.converses_lines hx (ih fun y hy => h y (List.mem_cons_of_mem _ hy))
    rw [List.flatMap_cons, List.map_append, List.map_cons, List.map_cons, String.join_cons,
      String.append_assoc]
    exact hall

theorem toList_join_text (xs : List Submission) :
    (String.join (xs.map (·.text))).toList = typed (xs.flatMap (·.lines)) := by
  induction xs with
  | nil => rfl
  | cons x xs ih =>
    rw [List.map_cons, String.join_cons, String.toList_append, ih, x.toList_text, typed, typed,
      typed, List.flatMap_cons, List.flatMap_append]

/-- Sessions are exact and independent. From the texts of any submissions, one after the other, the
prompt reads and executes exactly the submitted programs, in order. It shows for each what is shown
while it is typed in and what its execution gives, as a session with that program alone does, and
the prompt that closes a session once at the end. -/
theorem session_eq (s : Settings) {xs : List Submission} (h : ∀ x ∈ xs, x.Acceptable) :
    let input := String.join (xs.map (·.text))
    let shown := String.join (xs.map (·.exchange s)) ++ ">"
    Converses s (Entry.ofInput input.toUTF8) (xs.map (·.source)) shown ∧
    session s input.toUTF8 = ⟨shown, none⟩ ∧
    ∀ x ∈ xs, session s x.text.toUTF8 = ⟨x.exchange s ++ ">", none⟩ := by
  have hlines : ∀ line ∈ xs.flatMap (·.lines), Typable line := by
    intro line hline
    obtain ⟨x, hx, hline⟩ := List.mem_flatMap.1 hline
    exact Submission.typable (h x hx) line hline
  have hall := converses_all s h
  rw [← Entry.ofInput_typed hlines (toList_join_text xs)] at hall
  refine ⟨hall, converse_of_converses hall "", fun x hx => ?_⟩
  have halone := Submission.converses_lines (h x hx) (converses_nil s)
  rw [List.append_nil, ← Submission.ofInput_text (h x hx)] at halone
  exact converse_of_converses halone ""

/-- A program of three lines, of which the second is empty, and one that is a line of its own and
faults. -/
theorem session_eq_mixed :
    let x : Submission := ⟨"let a = true;\n\nprint a;", .framed⟩
    let y : Submission := ⟨" exit", .bare⟩
    x.Acceptable ∧ y.Acceptable ∧
    session {} ">let a = true;\n\nprint a;\nexit\n exit\n".toUTF8 =
      ⟨">\nTYPE 'exit' TO END\n 1   let a = true;\n 2    3    4   \ntrue\n" ++
        "\nGLOBAL MEMORY:\na = true\n\n" ++
        ">\nRuntime Error\nstdin: Line 1\n exit\n ^\nInvalid Variable: exit\n" ++
        "\nGLOBAL MEMORY:\n\n>", none⟩ ∧
    session {} " exit\n".toUTF8 =
      ⟨">\nRuntime Error\nstdin: Line 1\n exit\n ^\nInvalid Variable: exit\n" ++
        "\nGLOBAL MEMORY:\n\n>", none⟩ := by
  intro x y
  have hx : x.Acceptable := by
    have hpieces : x.pieces = ["let a = true;".toList, [], "print a;".toList] := by decide +kernel
    constructor
    · rw [hpieces]
      decide +kernel
    · rw [hpieces]
      decide +kernel
    · intro h
      cases h
  have hy : y.Acceptable := by
    have hpieces : y.pieces = [" exit".toList] := by decide +kernel
    constructor
    · rw [hpieces]
      decide +kernel
    · rw [hpieces]
      decide +kernel
    · exact fun _ => ⟨by decide +kernel, 'e', "xit".toList, by decide +kernel, by decide⟩
  have hxy : ∀ z ∈ [x, y], z.Acceptable := by simp [hx, hy]
  obtain ⟨-, hall, halone⟩ := session_eq {} hxy
  have hinput : String.join ([x, y].map (·.text)) =
      ">let a = true;\n\nprint a;\nexit\n exit\n" := by decide +kernel
  have hytext : y.text = " exit\n" := by decide +kernel
  have hxshown : x.exchange {} =
      ">\nTYPE 'exit' TO END\n 1   let a = true;\n 2    3    4   \ntrue\n" ++
        "\nGLOBAL MEMORY:\na = true\n\n" := by decide +kernel
  have hyshown : y.exchange {} =
      ">\nRuntime Error\nstdin: Line 1\n exit\n ^\nInvalid Variable: exit\n" ++
        "\nGLOBAL MEMORY:\n\n" := by decide +kernel
  refine ⟨hx, hy, ?_, ?_⟩
  · rw [← hinput, hall, List.map_cons, List.map_singleton, hxshown, hyshown]
    exact congrArg (Shown.mk · none) (by decide +kernel)
  · rw [← hytext, halone y (by simp), hyshown]
    exact congrArg (Shown.mk · none) (by decide +kernel)

end ScopeScript.Prompt
