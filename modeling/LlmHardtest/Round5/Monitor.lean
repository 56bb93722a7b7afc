import LlmHardtest.Round5.Attempt
import LlmHardtest.Python.PieceScan
set_option autoImplicit false

/-! The monitor of a running agent turn: it reads the transcript as it grows, counts the unsupported
tool calls of the lines completed so far and stops the agent at the third. -/

namespace Round5
open Python Python.Regex

def carryLimit : Nat := 8192

def endsLine (line : Str) : Bool := line.getLast? == some '\n' || line.getLast? == some '\r'

def takeUnfinished (text : Str) : List Str × Str :=
  match (splitlinesKeep text).getLast? with
  | some last =>
      if endsLine last then (splitlinesKeep text, []) else ((splitlinesKeep text).dropLast, last)
  | none => (splitlinesKeep text, [])

/-- `_new_protocol_calls`; a file that cannot be read changes nothing. -/
def newProtocolCalls (u : UnicodeData) (file : Option (List UInt8)) (position : Nat) (carry : Str) :
    List Str × Nat × Str :=
  match file with
  | none => ([], position, carry)
  | some file =>
      let data := file.drop position
      let (lines, unfinished) := takeUnfinished (carry ++ Utf8.decodeReplace data)
      (unsupportedToolCalls u lines.flatten, position + data.length,
        unfinished.drop (unfinished.length - carryLimit))

/-- How a wait for the agent process ends: its time is over, it has exited, or it is still running
and the transcript is looked at. -/
inductive Wait where
  | outOfTime
  | exited
  | running (file : Option (List UInt8))
  deriving DecidableEq

structure Watch where
  detectedCalls : List Str
  scanPosition : Nat
  carry : Str
  timedOut : Bool
  protocolAborted : Bool
  terminationReason : Option Str
  deriving DecidableEq

def Watch.start : Watch := ⟨[], 0, [], false, false, none⟩

def Watch.scan (u : UnicodeData) (file : Option (List UInt8)) (w : Watch) : Watch :=
  let (calls, position, carry) := newProtocolCalls u file w.scanPosition w.carry
  { w with detectedCalls := w.detectedCalls ++ calls, scanPosition := position, carry := carry }

def agentTurn (u : UnicodeData) : List Wait → Watch → Watch
  | [], w => w
  | .outOfTime :: _, w =>
      { w with timedOut := true, terminationReason := some "timeout".toList }
  | .exited :: _, w => w
  | .running file :: waits, w =>
      let w := w.scan u file
      if maxUnsupportedCallsPerAgentTurn ≤ w.detectedCalls.length then
        { w with protocolAborted := true, terminationReason := some "unsupported_tool_loop".toList }
      else agentTurn u waits w

/-! The two patterns search each line for a message. -/

def unsupportedCallMessage : Re :=
  .cat [.alt routerError (.seq (.litI "tool router error:") (.many .space)),
    .litI "unsupported call:", .many .space, .group 1 toolName]

def unavailableToolMessage : Re :=
  .cat [routerError, .group 1 toolName, .some .space, .litI "is unavailable in ",
    .many (.noneOf "\r\n"), .litI " mode", .wordBoundary]

theorem unsupportedCallPattern_eq : unsupportedCallPattern = lineRe unsupportedCallMessage := rfl

theorem unavailableToolPattern_eq : unavailableToolPattern = lineRe unavailableToolMessage := rfl

theorem plain_routerError : Plain routerError :=
  .seq (plain_litsI _) (.seq (.seq .set (.star .set)) (.seq (plain_litsI _)
    (.seq (.seq .set (.star .set)) (plain_litsI _))))

theorem plain_toolName : Plain toolName := .seq .set (.star .set)

def isPlainAscii (c : Char) : Bool := decide (c.toNat < 128) && c.toLower != '\n'

theorem fold_newline_ne_of_plain {u : UnicodeData} {c : Char} (hc : isPlainAscii c = true) :
    u.fold '\n' ≠ u.fold c := by
  simp only [isPlainAscii, Bool.and_eq_true, decide_eq_true_eq, bne_iff_ne] at hc
  exact fold_newline_ne hc.1 (Ne.symm hc.2)

theorem lastChar_toolName (u : UnicodeData) : LastChar u toolName := by
  have hset : LastChar u (.classI "abcdefghijklmnopqrstuvwxyz0123456789_.-") := by
    refine lastChar_set ?_
    rw [List.any_eq_false]
    intro c hc
    have hall : ("abcdefghijklmnopqrstuvwxyz0123456789_.-".toList.all isPlainAscii) = true := by
      decide
    have hne := fold_newline_ne_of_plain (u := u) (List.all_eq_true.mp hall c hc)
    simpa only [beq_iff_eq] using hne.symm
  exact hset.seq_keeps hset.keeps.star

theorem unsupportedCallMessage_message (u : UnicodeData) : Message u unsupportedCallMessage where
  plain := .seq (.alt plain_routerError (.seq (plain_litsI _) (.star .set)))
    (.seq (plain_litsI _) (.seq (.star .set) (.group plain_toolName)))
  blind := Blind.seq (Blind.alt (Blind.seq (Blind.seq blind_set)) (Blind.seq (Blind.seq blind_set)))
  moves := Moves.seq (Moves.alt (Moves.seq (Moves.seq moves_set)) (Moves.seq (Moves.seq moves_set)))
  lastChar := LastChar.seq (LastChar.seq (LastChar.seq (lastChar_toolName u).group))

theorem unavailableToolMessage_message (u : UnicodeData) : Message u unavailableToolMessage where
  plain := .seq plain_routerError (.seq (.group plain_toolName) (.seq (.seq .set (.star .set))
    (.seq (plain_litsI _) (.seq (.star .set) (.seq (plain_litsI _) .wordBoundary)))))
  blind := Blind.seq (Blind.seq (Blind.seq blind_set))
  moves := Moves.seq (Moves.seq (Moves.seq moves_set))
  lastChar := by
    have hmode : LastChar u (.litI " mode") := by
      have hall : (" mode".toList.all isPlainAscii) = true := by decide
      exact lastChar_litsI fun c hc => fold_newline_ne_of_plain (List.all_eq_true.mp hall c hc)
    exact LastChar.seq (LastChar.seq (LastChar.seq (LastChar.seq (LastChar.seq
      (hmode.seq_keeps keeps_wordBoundary)))))

theorem unsupportedToolCalls_length (u : UnicodeData) (text : Str) :
    (unsupportedToolCalls u text).length =
      hitCount u (lineRe unsupportedCallMessage) ⟨none, text, []⟩ +
        hitCount u (lineRe unavailableToolMessage) ⟨none, text, []⟩ := by
  rw [unsupportedToolCalls, List.length_map, List.length_append, List.length_map, List.length_map,
    unsupportedCallPattern_eq, unavailableToolPattern_eq,
    findIter_length (lineRe_moves (unsupportedCallMessage_message u)),
    findIter_length (lineRe_moves (unavailableToolMessage_message u))]

/-- No match of either pattern from the start of a line runs over the end of that line. -/
structure MessagesInLine (u : UnicodeData) (text : Str) : Prop where
  unsupported : Confined u unsupportedCallMessage text
  unavailable : Confined u unavailableToolMessage text

theorem unsupportedToolCalls_append {u : UnicodeData} {a b : Str} (ha : AtLine a)
    (h : MessagesInLine u (a ++ b)) :
    (unsupportedToolCalls u (a ++ b)).length =
      (unsupportedToolCalls u a).length + (unsupportedToolCalls u b).length := by
  rw [unsupportedToolCalls_length, unsupportedToolCalls_length, unsupportedToolCalls_length,
    hitCount_append (unsupportedCallMessage_message u) ha h.unsupported,
    hitCount_append (unavailableToolMessage_message u) ha h.unavailable]
  omega

theorem unsupportedToolCalls_grow {u : UnicodeData} {dropped text : Str} (hdropped : '\n' ∉ dropped)
    (hcut : dropped.getLast?.any (isWord u) = true → text.head?.any (isWord u) = false)
    (htext : AtLine text) (h : MessagesInLine u (dropped ++ text)) :
    (unsupportedToolCalls u text).length ≤ (unsupportedToolCalls u (dropped ++ text)).length := by
  rw [unsupportedToolCalls_length, unsupportedToolCalls_length]
  exact Nat.add_le_add
    (hitCount_grow (unsupportedCallMessage_message u) hdropped hcut htext h.unsupported)
    (hitCount_grow (unavailableToolMessage_message u) hdropped hcut htext h.unavailable)

theorem MessagesInLine.head {u : UnicodeData} {a b : Str} (h : MessagesInLine u (a ++ b))
    (ha : AtLine a) : MessagesInLine u a :=
  ⟨h.unsupported.head (unsupportedCallMessage_message u) ha,
    h.unavailable.head (unavailableToolMessage_message u) ha⟩

theorem MessagesInLine.suffix {u : UnicodeData} {a b : Str} (h : MessagesInLine u (a ++ b))
    (ha : AtLine a) : MessagesInLine u b :=
  ⟨h.unsupported.suffix ha, h.unavailable.suffix ha⟩

theorem takeUnfinished_spec (text : Str) :
    (takeUnfinished text).1.flatten ++ (takeUnfinished text).2 = text ∧
      '\n' ∉ (takeUnfinished text).2 := by
  unfold takeUnfinished
  cases hlast : (splitlinesKeep text).getLast? with
  | none => simp [flatten_splitlinesKeep]
  | some last =>
    by_cases hend : endsLine last = true
    · simp [hend, flatten_splitlinesKeep]
    · have hsplit : (splitlinesKeep text).dropLast ++ [last] = splitlinesKeep text :=
        List.dropLast_append_getLast? last hlast
      simp only [hend, Bool.false_eq_true, if_false]
      constructor
      · have hflat := congrArg List.flatten hsplit
        rw [List.flatten_append, List.flatten_singleton, flatten_splitlinesKeep] at hflat
        exact hflat
      · intro hn
        have hl := newline_last (List.mem_of_getLast? hlast) hn
        simp [endsLine, hl] at hend

/-- The text a scan works on: the carry and what was appended since the last one. -/
def scanText (seen file : List UInt8) (carry : Str) : Str :=
  carry ++ Utf8.decodeReplace (file.drop seen.length)

/-- The parts of an unfinished line: what no later scan sees, and the carry. -/
def forgotten (unfinished : Str) : Str := unfinished.take (unfinished.length - carryLimit)
def kept (unfinished : Str) : Str := unfinished.drop (unfinished.length - carryLimit)

theorem forgotten_append_kept (unfinished : Str) :
    forgotten unfinished ++ kept unfinished = unfinished := List.take_append_drop _ _

theorem forgotten_eq_nil {unfinished : Str} (h : kept unfinished = []) :
    forgotten unfinished = [] := by
  have hlen := List.drop_eq_nil_iff.mp h
  have hzero : unfinished.length - carryLimit = 0 := by
    simp only [carryLimit] at hlen ⊢
    omega
  rw [forgotten, hzero, List.take_zero]

/-- A scan that reads whole characters, finds only whole lines before the unfinished one, and does
not shorten the unfinished one inside a word. -/
structure CleanScan (u : UnicodeData) (seen file : List UInt8) (carry : Str) : Prop where
  grows : seen <+: file
  decoded : Utf8.decodeReplace file =
    Utf8.decodeReplace seen ++ Utf8.decodeReplace (file.drop seen.length)
  wholeLines : AtLine (takeUnfinished (scanText seen file carry)).1.flatten
  wholeWord :
    (forgotten (takeUnfinished (scanText seen file carry)).2).getLast?.any (isWord u) = true →
      (kept (takeUnfinished (scanText seen file carry)).2).head?.any (isWord u) = false

/-- The state of the monitor after it has read `seen`: the text read is whole lines, a forgotten
part of the unfinished line and the carry, and only calls of the whole lines were counted. -/
structure Watched (u : UnicodeData) (seen : List UInt8) (w : Watch) (whole dropped : Str) :
    Prop where
  text : Utf8.decodeReplace seen = whole ++ (dropped ++ w.carry)
  lines : AtLine whole
  unfinished : '\n' ∉ dropped ++ w.carry
  noCarry : w.carry = [] → dropped = []
  word : dropped.getLast?.any (isWord u) = true → w.carry.head?.any (isWord u) = false
  position : w.scanPosition = seen.length
  counted : MessagesInLine u whole →
    w.detectedCalls.length ≤ (unsupportedToolCalls u whole).length

theorem Watched.start (u : UnicodeData) : Watched u [] Watch.start [] [] where
  text := rfl
  lines := .inl rfl
  unfinished := by simp [Watch.start]
  noCarry _ := rfl
  word := by simp
  position := rfl
  counted _ := Nat.zero_le _

theorem Watch.scan_some (u : UnicodeData) {seen : List UInt8} {w : Watch}
    (hw : w.scanPosition = seen.length) (file : List UInt8) :
    w.scan u (some file) = { w with
      detectedCalls := w.detectedCalls ++
        unsupportedToolCalls u (takeUnfinished (scanText seen file w.carry)).1.flatten
      scanPosition := seen.length + (file.drop seen.length).length
      carry := kept (takeUnfinished (scanText seen file w.carry)).2 } := by
  simp only [Watch.scan, newProtocolCalls, hw, scanText, kept]

@[simp] theorem unsupportedToolCalls_nil (u : UnicodeData) : unsupportedToolCalls u [] = [] := by
  rw [← List.length_eq_zero_iff, unsupportedToolCalls_length,
    hitCount_nil (lineRe_moves (unsupportedCallMessage_message u)),
    hitCount_nil (lineRe_moves (unavailableToolMessage_message u))]

/-- A clean scan keeps the monitor's state in step with the transcript. -/
theorem Watched.scan {u : UnicodeData} {seen file : List UInt8} {w : Watch} {whole dropped : Str}
    (h : Watched u seen w whole dropped) (hscan : CleanScan u seen file w.carry) :
    ∃ whole' dropped', Watched u file (w.scan u (some file)) whole' dropped' := by
  obtain ⟨hsplit, hunfinished⟩ := takeUnfinished_spec (scanText seen file w.carry)
  have hwhole := hscan.wholeLines
  have hword := hscan.wholeWord
  rw [Watch.scan_some u h.position]
  generalize hlines : (takeUnfinished (scanText seen file w.carry)).1.flatten = lines at *
  generalize hlast : (takeUnfinished (scanText seen file w.carry)).2 = unfinished at *
  have htext : Utf8.decodeReplace file = whole ++ (dropped ++ (lines ++ unfinished)) := by
    rw [hscan.decoded, h.text, hsplit, scanText]
    simp
  have hposition : seen.length + (file.drop seen.length).length = file.length := by
    have hle := hscan.grows.length_le
    rw [List.length_drop]
    omega
  have hparts := forgotten_append_kept unfinished
  by_cases hnil : lines = []
  · -- no line was completed: the unfinished one only became longer
    subst hnil
    have hcarry : w.carry ++ Utf8.decodeReplace (file.drop seen.length) = unfinished := by
      rw [List.nil_append] at hsplit
      exact hsplit.symm
    refine ⟨whole, dropped ++ forgotten unfinished, ?_, h.lines, ?_, ?_, ?_, hposition, ?_⟩
    · simp only
      rw [htext, List.append_assoc, hparts, List.nil_append]
    · simp only
      rw [List.append_assoc, hparts]
      have hd := h.unfinished
      simp only [List.mem_append, not_or] at hd ⊢
      exact ⟨hd.1, hunfinished⟩
    · intro hkept
      simp only at hkept
      have hf := forgotten_eq_nil hkept
      rw [hf, hkept] at hparts
      rw [← hparts] at hcarry
      rw [h.noCarry (List.append_eq_nil_iff.mp hcarry).1, hf, List.nil_append]
    · simp only
      by_cases hf : forgotten unfinished = []
      · rw [hf, List.append_nil]
        rw [hf, List.nil_append] at hparts
        rw [hparts]
        intro hlastw
        have hne : w.carry ≠ [] := by
          intro hc
          rw [h.noCarry hc] at hlastw
          simp at hlastw
        rw [← hcarry, List.head?_append, List.head?_eq_some_head hne, Option.some_or,
          ← List.head?_eq_some_head hne]
        exact h.word hlastw
      · rw [List.getLast?_append, List.getLast?_eq_some_getLast hf, Option.some_or,
          ← List.getLast?_eq_some_getLast hf]
        exact hword
    · intro hcalm
      simp only [unsupportedToolCalls_nil, List.append_nil]
      exact h.counted hcalm
  · have hend : lines.getLast? = some '\n' := hwhole.resolve_left hnil
    have hline : AtLine (dropped ++ lines) :=
      .inr (by rw [List.getLast?_append, hend, Option.some_or])
    refine ⟨whole ++ (dropped ++ lines), forgotten unfinished, ?_, h.lines.append hline, ?_,
      ?_, ?_, hposition, ?_⟩
    · simp only
      rw [htext, hparts]
      simp
    · simp only
      rw [hparts]
      exact hunfinished
    · intro hkept
      simp only at hkept
      exact forgotten_eq_nil hkept
    · simp only
      exact hword
    · intro hcalm
      have hdropped : '\n' ∉ dropped := fun hm => h.unfinished (List.mem_append_left _ hm)
      have hhead : dropped.getLast?.any (isWord u) = true →
          lines.head?.any (isWord u) = false := by
        intro hd
        have hne : w.carry ≠ [] := by
          intro hc
          rw [h.noCarry hc] at hd
          simp at hd
        have hl : (lines ++ unfinished).head? = w.carry.head? := by
          rw [hsplit, scanText, List.head?_append, List.head?_eq_some_head hne, Option.some_or]
        rw [List.head?_append, List.head?_eq_some_head hnil, Option.some_or,
          ← List.head?_eq_some_head hnil] at hl
        rw [hl]
        exact h.word hd
      have hgrow := unsupportedToolCalls_grow hdropped hhead (.inr hend) (hcalm.suffix h.lines)
      have hcounted := h.counted (hcalm.head h.lines)
      rw [unsupportedToolCalls_append h.lines hcalm]
      simp only [List.length_append]
      omega

theorem Watched.counted_le {u : UnicodeData} {seen : List UInt8} {w : Watch} {whole dropped : Str}
    (h : Watched u seen w whole dropped) {final more : Str}
    (hfinal : final = Utf8.decodeReplace seen ++ more) (hcalm : MessagesInLine u final) :
    w.detectedCalls.length ≤ (unsupportedToolCalls u final).length := by
  rw [h.text, List.append_assoc] at hfinal
  subst hfinal
  have hle := h.counted (hcalm.head h.lines)
  rw [unsupportedToolCalls_append h.lines hcalm]
  omega

/-- A turn whose scans are clean, on a transcript that ends up as `final`. -/
inductive CleanTurn (u : UnicodeData) (final : List UInt8) :
    List UInt8 → Watch → List Wait → Prop where
  | last {seen : List UInt8} {w : Watch} {waits : List Wait} : seen <+: final →
      Utf8.decodeReplace final =
        Utf8.decodeReplace seen ++ Utf8.decodeReplace (final.drop seen.length) →
      (∀ file, Wait.running file ∉ waits) → CleanTurn u final seen w waits
  | unread {seen : List UInt8} {w : Watch} {waits : List Wait} :
      CleanTurn u final seen w waits → CleanTurn u final seen w (.running none :: waits)
  | scan {seen file : List UInt8} {w : Watch} {waits : List Wait} :
      CleanScan u seen file w.carry → CleanTurn u final file (w.scan u (some file)) waits →
      CleanTurn u final seen w (.running (some file) :: waits)

theorem CleanTurn.goesOn {u : UnicodeData} {final seen : List UInt8} {w : Watch}
    {waits : List Wait} (h : CleanTurn u final seen w waits) :
    ∃ more, Utf8.decodeReplace final = Utf8.decodeReplace seen ++ more := by
  induction h with
  | last _ hsplit _ => exact ⟨_, hsplit⟩
  | unread _ ih => exact ih
  | scan hscan _ ih =>
    obtain ⟨more, hmore⟩ := ih
    exact ⟨_, by rw [hmore, hscan.decoded, List.append_assoc]⟩

theorem agentTurn_stopped (u : UnicodeData) {waits : List Wait} {w : Watch}
    (h : ∀ file, Wait.running file ∉ waits) :
    (agentTurn u waits w).detectedCalls = w.detectedCalls := by
  cases waits with
  | nil => rfl
  | cons wait waits =>
    cases wait with
    | outOfTime => rfl
    | exited => rfl
    | running file => exact absurd List.mem_cons_self (h file)

theorem agentTurn_unread (u : UnicodeData) (waits : List Wait) (w : Watch) :
    (agentTurn u (.running none :: waits) w).detectedCalls =
      if maxUnsupportedCallsPerAgentTurn ≤ w.detectedCalls.length then w.detectedCalls
      else (agentTurn u waits w).detectedCalls := by
  have hscan : w.scan u none = w := by simp [Watch.scan, newProtocolCalls]
  rw [agentTurn, hscan]
  split <;> rfl

theorem CleanTurn.detected_le {u : UnicodeData} {final seen : List UInt8} {w : Watch}
    {waits : List Wait} {whole dropped : Str} (h : CleanTurn u final seen w waits)
    (hw : Watched u seen w whole dropped)
    (hcalm : MessagesInLine u (Utf8.decodeReplace final)) :
    (agentTurn u waits w).detectedCalls.length ≤
      (unsupportedToolCalls u (Utf8.decodeReplace final)).length := by
  induction h generalizing whole dropped with
  | last _ hsplit hstop =>
    rw [agentTurn_stopped u hstop]
    exact hw.counted_le hsplit hcalm
  | unread hrest ih =>
    rw [agentTurn_unread]
    obtain ⟨more, hmore⟩ := hrest.goesOn
    split
    · exact hw.counted_le hmore hcalm
    · exact ih hw
  | scan hscan hrest ih =>
    obtain ⟨whole', dropped', hw'⟩ := hw.scan hscan
    obtain ⟨more, hmore⟩ := hrest.goesOn
    rw [agentTurn]
    split
    · exact hw'.counted_le hmore hcalm
    · exact ih hw'

theorem agentTurn_aborted (u : UnicodeData) (waits : List Wait) (w : Watch)
    (hw : w.protocolAborted = false) (h : (agentTurn u waits w).protocolAborted = true) :
    maxUnsupportedCallsPerAgentTurn ≤ (agentTurn u waits w).detectedCalls.length := by
  induction waits generalizing w with
  | nil => simp [agentTurn, hw] at h
  | cons wait waits ih =>
    cases wait with
    | outOfTime => simp [agentTurn, hw] at h
    | exited => simp [agentTurn, hw] at h
    | running file =>
      rw [agentTurn] at h ⊢
      by_cases hmax : maxUnsupportedCallsPerAgentTurn ≤ (w.scan u file).detectedCalls.length
      · simpa only [if_pos hmax] using hmax
      · simp only [if_neg hmax] at h ⊢
        exact ih _ hw h

/-- A monitor whose scans are clean counts no call that the whole transcript lacks, and an aborted
turn leaves the evidence for it. -/
theorem agentTurn_calls_le {u : UnicodeData} {final : List UInt8} {waits : List Wait}
    (hturn : CleanTurn u final [] .start waits)
    (hcalm : MessagesInLine u (Utf8.decodeReplace final)) :
    (agentTurn u waits .start).detectedCalls.length ≤
        (unsupportedToolCalls u (Utf8.decodeReplace final)).length ∧
      ((agentTurn u waits .start).protocolAborted = true → '\r' ∉ Utf8.decodeReplace final →
        maxUnsupportedCallsPerAgentTurn ≤
          (unsupportedToolCalls u (readTranscript final)).length) := by
  have hle := hturn.detected_le (Watched.start u) hcalm
  refine ⟨hle, ?_⟩
  intro habort hcr
  rw [readTranscript, universalNewlines_of_not_mem hcr]
  exact (agentTurn_aborted u waits .start rfl habort).trans hle

theorem MessagesInLine.line {u : UnicodeData} {body tail : Str} (hbody : '\n' ∉ body)
    (h : ∀ q ∈ lineEnds u unsupportedCallMessage (body ++ '\n' :: tail),
      tail.length < q.rest.length)
    (h' : ∀ q ∈ lineEnds u unavailableToolMessage (body ++ '\n' :: tail),
      tail.length < q.rest.length)
    (htail : MessagesInLine u tail) : MessagesInLine u (body ++ '\n' :: tail) :=
  ⟨.line hbody h htail.unsupported, .line hbody h' htail.unavailable⟩

theorem MessagesInLine.nil (u : UnicodeData) : MessagesInLine u [] :=
  ⟨.nil (unsupportedCallMessage_message u), .nil (unavailableToolMessage_message u)⟩

section Sample

def asciiBytes (s : Str) : List UInt8 := s.map fun c => UInt8.ofNat c.toNat

def routerText : Str := "tool router error:".toList
def callText : Str := " unsupported call: ".toList

def sampleLine : Str := routerText ++ callText ++ ['x']

def samplePieces : List (List UInt8) :=
  [asciiBytes (sampleLine ++ '\n' :: routerText),
    asciiBytes (callText ++ 'x' :: '\n' :: sampleLine ++ ['\n'])]

def sampleWaits : List Wait :=
  [.running (some (samplePieces.take 1).flatten), .running none,
    .running (some samplePieces.flatten)]

theorem sampleWaits_clean : CleanTurn asciiData samplePieces.flatten [] .start sampleWaits := by
  refine .scan ⟨by decide +kernel, by decide +kernel, .inr (by decide +kernel), by decide +kernel⟩ ?_
  refine .unread (.scan ?_ ?_)
  · exact ⟨by decide +kernel, by decide +kernel, .inr (by decide +kernel), by decide +kernel⟩
  · exact .last (by decide +kernel) (by decide +kernel) (by simp)

theorem samplePieces_inLine :
    MessagesInLine asciiData (Utf8.decodeReplace samplePieces.flatten) := by
  have htext : Utf8.decodeReplace samplePieces.flatten =
      sampleLine ++ '\n' :: (sampleLine ++ '\n' :: (sampleLine ++ '\n' :: [])) := by
    decide +kernel
  rw [htext]
  exact .line (by decide +kernel) (by decide +kernel) (by decide +kernel)
    (.line (by decide +kernel) (by decide +kernel) (by decide +kernel)
      (.line (by decide +kernel) (by decide +kernel) (by decide +kernel) (.nil _)))

theorem sampleWaits_counted : (agentTurn asciiData sampleWaits .start).detectedCalls.length ≤ 3 ∧
    3 ≤ (unsupportedToolCalls asciiData (readTranscript samplePieces.flatten)).length := by
  have h := agentTurn_calls_le sampleWaits_clean samplePieces_inLine
  exact ⟨h.1.trans (by decide +kernel), h.2 (by decide +kernel) (by decide +kernel)⟩

def brokenPieces : List (List UInt8) :=
  [asciiBytes (routerText ++ callText ++ 'a' :: ' ' :: routerText ++ ['\n']),
    asciiBytes (callText ++ 'b' :: ' ' :: routerText ++ callText ++ ['c', '\n']),
    asciiBytes (routerText ++ callText ++ ['d', '\n'])]

def brokenTranscript : List UInt8 := brokenPieces.flatten ++
  asciiBytes ("\n[harness] PROTOCOL_ABORT: killed after 3".toList ++
    " unsupported tool calls (a,c,d)\n".toList)

def brokenWaits : List Wait :=
  [.running (some (brokenPieces.take 1).flatten), .running (some (brokenPieces.take 2).flatten),
    .running (some brokenPieces.flatten)]

theorem brokenWaits_overcounted :
    (brokenPieces.take 1).flatten <+: (brokenPieces.take 2).flatten ∧
      (brokenPieces.take 2).flatten <+: brokenPieces.flatten ∧
      brokenPieces.flatten <+: brokenTranscript ∧
      (agentTurn asciiData brokenWaits .start).protocolAborted = true ∧
      (agentTurn asciiData brokenWaits .start).detectedCalls =
        ["a".toList, "c".toList, "d".toList] ∧
      unsupportedToolCalls asciiData (Utf8.decodeReplace brokenTranscript) =
        ["b".toList, "d".toList] ∧
      unsupportedToolCalls asciiData (readTranscript brokenTranscript) =
        ["b".toList, "d".toList] := by
  have hread : readTranscript brokenTranscript = Utf8.decodeReplace brokenTranscript := by
    decide +kernel
  have hcalls : unsupportedToolCalls asciiData (Utf8.decodeReplace brokenTranscript) =
      ["b".toList, "d".toList] := by
    decide +kernel
  rw [hread]
  exact ⟨by decide +kernel, by decide +kernel, by decide +kernel, by decide +kernel,
    by decide +kernel, hcalls, hcalls⟩

end Sample

end Round5
