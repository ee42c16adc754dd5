import Mathlib.Data.List.TakeWhile
import SierraSdk.Library.Machine

/-!
# The AT channel

One thread issues AT commands and waits; a reader thread hands every line that the modem sends
to `processLine`. While a command is pending, a line is its final response, or an intermediate
response by the rule of its type, or it is unsolicited. The waiting thread takes the response
some time after the final response was recorded, and lines may be processed in between.

Each critical section of the command mutex is one step. `sentPDU` and `received` are not in the
source: they record the PDU of the pending command, and the lines that `processLine` was given
since that command was issued. `intermediatesOf` says which of these lines are the intermediate
responses, without the state of the channel.
-/

namespace SierraSdk

namespace Ril

open Machine

/-- A line, without what ends it. -/
abbrev Line := List Char

def strStartsWith : Line → Line → Bool
  | _, [] => true
  | [], _ :: _ => false
  | c :: line, d :: start => if c ≠ d then false else strStartsWith line start

def finalResponsesError : List Line :=
  ["ERROR".toList, "+CMS ERROR:".toList, "+CME ERROR:".toList, "NO CARRIER".toList,
    "NO ANSWER".toList, "NO DIALTONE".toList, "*CNTI: +CME ERROR:".toList]

def finalResponsesSuccess : List Line := ["OK".toList, "CONNECT".toList]

def smsUnsoliciteds : List Line := ["+CMT:".toList, "+CDS:".toList, "+CBM:".toList]

def isFinalResponseError (line : Line) : Bool := finalResponsesError.any (strStartsWith line)

def isFinalResponseSuccess (line : Line) : Bool := finalResponsesSuccess.any (strStartsWith line)

def isFinalResponse (line : Line) : Bool := isFinalResponseSuccess line || isFinalResponseError line

def isSMSUnsolicited (line : Line) : Bool := smsUnsoliciteds.any (strStartsWith line)

/-- The prompt for the PDU of a message. -/
def smsPrompt : Line := "> ".toList

/-- The type of a command, with the prefix that the lines of its response have. -/
inductive ATCommandType where
  | noResult
  | numeric
  | singleLine (responsePrefix : Line)
  | multiLine (responsePrefix : Line)
  | multiValue (responsePrefix : Line)

/-- The intermediate lines are a list with the last one in front. -/
structure ATResponse where
  success : Bool
  finalResponse : Option Line
  p_intermediates : List Line

def at_response_new : ATResponse where
  success := false
  finalResponse := none
  p_intermediates := []

inductive AtError where
  | generic
  | commandPending
  | channelClosed
  | timeout

/-- The channel. `requestmutex` is held while a thread waits for a response, and `line1` is the
first line of a message that takes two lines. -/
structure AtContext where
  type : ATCommandType
  smsPDU : Option Line
  response : Option ATResponse
  readerClosed : Bool
  requestmutex : Bool
  line1 : Option Line
  sentPDU : Option Line
  received : List Line

/-- The channel as it is opened. -/
def atOpened : AtContext where
  type := .noResult
  smsPDU := none
  response := none
  readerClosed := false
  requestmutex := false
  line1 := none
  sentPDU := none
  received := []

/-- What happens to the channel: a command is issued and written or not, a line is read, the
reader ends, the waiting thread looks for a response, or it has waited too long. -/
inductive AtEvent where
  | send (type : ATCommandType) (smspdu : Option Line) (written : Bool)
  | read (line : Line)
  | readerClosed
  | wake
  | timeout

inductive AtOutput where
  | unsolicited (line : Line) (smsPdu : Option Line)
  | ctrlZ (smsPDU : Option Line)
  | returned (err : Option AtError) (response : Option ATResponse)

def addIntermediate (r : ATResponse) (line : Line) : ATResponse :=
  { r with p_intermediates := line :: r.p_intermediates }

def handleFinalResponse (ac : AtContext) (r : ATResponse) (line : Line) : AtContext :=
  { ac with response := some { r with finalResponse := some line } }

/-- A line that is neither a final response nor the prompt goes to `addIntermediate`. Only for
several values is it seen whether a final response has come. -/
def isIntermediate (type : ATCommandType) (r : ATResponse) (line : Line) : Bool :=
  match type with
  | .noResult => false
  | .numeric => r.p_intermediates.isEmpty && line.head?.any Char.isDigit
  | .singleLine responsePrefix => r.p_intermediates.isEmpty && strStartsWith line responsePrefix
  | .multiLine responsePrefix => strStartsWith line responsePrefix
  | .multiValue responsePrefix =>
      if r.p_intermediates.isEmpty then strStartsWith line responsePrefix else !r.success

/-- The line is the prompt for a PDU that has not been written yet. -/
def AtContext.prompted (ac : AtContext) (line : Line) : Bool :=
  ac.smsPDU.isSome && line == smsPrompt

def processLine (ac : AtContext) (line : Line) : AtContext × List AtOutput :=
  match ac.response with
  | none => (ac, [.unsolicited line none])
  | some r =>
      if isFinalResponseSuccess line then
        (handleFinalResponse ac { r with success := true } line, [])
      else if isFinalResponseError line then
        (handleFinalResponse ac { r with success := false } line, [])
      else if ac.prompted line then ({ ac with smsPDU := none }, [.ctrlZ ac.smsPDU])
      else if isIntermediate ac.type r line then
        ({ ac with response := some (addIntermediate r line) }, [])
      else (ac, [.unsolicited line none])

def reverseIntermediates (r : ATResponse) : ATResponse :=
  { r with p_intermediates := r.p_intermediates.reverse }

def clearPendingCommand (ac : AtContext) : AtContext :=
  { ac with response := none, smsPDU := none }

/-- The end of `at_send_command_full_nolock`. -/
def endCommand (ac : AtContext) (err : Option AtError) (response : Option ATResponse) :
    AtContext × List AtOutput :=
  ({ clearPendingCommand ac with requestmutex := false }, [.returned err response])

/-- `at_send_command_full_nolock` until it waits for the response. While another thread waits,
it does not begin. -/
def at_send_command (ac : AtContext) (type : ATCommandType) (smspdu : Option Line)
    (written : Bool) : AtContext × List AtOutput :=
  if ac.requestmutex then (ac, [])
  else if ac.response.isSome then endCommand ac (some .commandPending) none
  else if ac.readerClosed then endCommand ac (some .channelClosed) none
  else if !written then endCommand ac (some .generic) none
  else
    ({ ac with
        type := type
        smsPDU := smspdu
        response := some at_response_new
        requestmutex := true
        sentPDU := smspdu
        received := [] }, [])

/-- The thread that waits takes the response, if there is a final one or the reader has
ended. -/
def at_take_response (ac : AtContext) : AtContext × List AtOutput :=
  match ac.response with
  | none => (ac, [])
  | some r =>
      if ac.requestmutex && (r.finalResponse.isSome || ac.readerClosed) then
        endCommand ac (if ac.readerClosed then some .channelClosed else none)
          (some (reverseIntermediates r))
      else (ac, [])

/-- The line that an event gives to `processLine`: a message of two lines passes it by. -/
def AtEvent.processed (ac : AtContext) : AtEvent → Option Line
  | .read line => if ac.line1.isSome || isSMSUnsolicited line then none else some line
  | _ => none

/-- Record a line as received for the pending command. -/
def AtContext.log (ac : AtContext) (line : Line) : AtContext :=
  { ac with received := ac.received ++ [line] }

/-- A line that `readerLoop` has read. -/
def readerLoop (ac : AtContext) (line : Line) : AtContext × List AtOutput :=
  match ac.line1 with
  | some line1 => ({ ac with line1 := none }, [.unsolicited line1 (some line)])
  | none =>
      if isSMSUnsolicited line then ({ ac with line1 := some line }, [])
      else processLine (ac.log line) line

def atStep (ac : AtContext) : AtEvent → AtContext × List AtOutput
  | .send type smspdu written => at_send_command ac type smspdu written
  | .read line => readerLoop ac line
  | .readerClosed => ({ ac with readerClosed := true }, [])
  | .wake => at_take_response ac
  | .timeout =>
      if ac.requestmutex then endCommand ac (some .timeout) none else (ac, [])

section Classification

/-- The lines before the first final response. -/
def beforeFinal (lines : List Line) : List Line := lines.takeWhile fun line => !isFinalResponse line

/-- The lines other than the one that prompts for a PDU. -/
def withoutPrompt (sentPDU : Option Line) (lines : List Line) : List Line :=
  if sentPDU.isSome then lines.erase smsPrompt else lines

/-- The lines that a type of command takes for its response. -/
def ATCommandType.responseLines : ATCommandType → List Line → List Line
  | .noResult, _ => []
  | .numeric, lines => (lines.find? fun line => line.head?.any Char.isDigit).toList
  | .singleLine responsePrefix, lines =>
      (lines.find? fun line => strStartsWith line responsePrefix).toList
  | .multiLine responsePrefix, lines => lines.filter fun line => strStartsWith line responsePrefix
  | .multiValue responsePrefix, lines =>
      lines.dropWhile fun line => !strStartsWith line responsePrefix

/-- The intermediate responses to a command among lines none of which is final. -/
def collected (type : ATCommandType) (sentPDU : Option Line) (lines : List Line) : List Line :=
  type.responseLines (withoutPrompt sentPDU lines)

/-- The intermediate responses to a command among the lines received for it. -/
def intermediatesOf (type : ATCommandType) (sentPDU : Option Line) (lines : List Line) :
    List Line :=
  collected type sentPDU (beforeFinal lines)

end Classification

/-- What the waiting thread would be given. -/
def AtContext.taken (ac : AtContext) : Option ATResponse := ac.response.map reverseIntermediates

/-- What a step is to guarantee: a line leaves the success flag and the final response that are
recorded as they are, and with a final response the intermediate responses to be returned are
the intermediate lines before it in order of arrival. -/
structure FinalKept (ac : AtContext) (event : AtEvent) : Prop where
  kept : ∀ line r final, event = .read line → ac.response = some r →
    r.finalResponse = some final →
    ∃ r', (atStep ac event).1.response = some r' ∧ r'.success = r.success ∧
      r'.finalResponse = some final
  returned : ∀ r, (atStep ac event).1.taken = some r → r.finalResponse.isSome →
    r.p_intermediates = intermediatesOf (atStep ac event).1.type (atStep ac event).1.sentPDU
      (atStep ac event).1.received

/-- A line that comes when the final response is recorded and not taken yet is that response
again, or it is neither final nor one that is added to the intermediate responses. -/
def LateLineHarmless (ac : AtContext) (event : AtEvent) : Prop :=
  ∀ line r final, event.processed ac = some line → ac.response = some r →
    r.finalResponse = some final →
    line = final ∨
      isFinalResponse line = false ∧
        (ac.prompted line = true ∨ isIntermediate ac.type r line = false)

section Collect

variable {lines : List Line} {line : Line}

theorem beforeFinal_concat_final (h : ∀ l ∈ lines, isFinalResponse l = false)
    (hline : isFinalResponse line = true) : beforeFinal (lines ++ [line]) = lines := by
  rw [beforeFinal, List.takeWhile_append_of_pos fun l hl => by simp [h l hl]]
  simp [hline]

/-- What comes after a final response is not looked at. -/
theorem beforeFinal_concat (h : ∃ l ∈ lines, isFinalResponse l = true) :
    beforeFinal (lines ++ [line]) = beforeFinal lines := by
  rw [beforeFinal, List.takeWhile_append, if_neg]
  · rfl
  · obtain ⟨l, hl, hfinal⟩ := h
    intro hlen
    have hall := List.takeWhile_eq_self_iff.mp
      ((List.takeWhile_prefix fun line => !isFinalResponse line).eq_of_length hlen)
    have := hall l hl
    simp [hfinal] at this

theorem withoutPrompt_concat (sentPDU : Option Line) :
    withoutPrompt sentPDU (lines ++ [line]) =
      if sentPDU.isSome ∧ smsPrompt ∉ lines ∧ line = smsPrompt then withoutPrompt sentPDU lines
      else withoutPrompt sentPDU lines ++ [line] := by
  unfold withoutPrompt
  by_cases hpdu : sentPDU.isSome = true
  · by_cases hmem : smsPrompt ∈ lines
    · simp [hpdu, hmem, List.erase_append_left]
    · by_cases hline : line = smsPrompt
      · simp [hpdu, hmem, hline, List.erase_append_right, List.erase_of_not_mem]
      · simp [hpdu, hmem, hline, List.erase_append_right, List.erase_of_not_mem,
          List.erase_cons_tail]
  · simp [hpdu]

/-- The first element with a property, in a list with one element more. -/
theorem find?_concat_toList (p : Line → Bool) :
    ((lines ++ [line]).find? p).toList =
      if (lines.find? p).toList.isEmpty && p line then (lines.find? p).toList ++ [line]
      else (lines.find? p).toList := by
  rw [List.find?_append]
  cases hfind : lines.find? p with
  | none => by_cases hp : p line = true <;> simp [hp]
  | some l => simp

/-- The rest of a list from the first element with a property, in a list with one element
more. -/
theorem dropWhile_concat (p : Line → Bool) :
    (lines ++ [line]).dropWhile (fun l => !p l) =
      if (lines.dropWhile fun l => !p l).isEmpty && !p line then lines.dropWhile fun l => !p l
      else (lines.dropWhile fun l => !p l) ++ [line] := by
  rw [List.dropWhile_append]
  by_cases hempty : (lines.dropWhile fun l => !p l).isEmpty = true
  · have hnil : (lines.dropWhile fun l => !p l) = [] := List.isEmpty_iff.mp hempty
    by_cases hp : p line = true <;> simp [hnil, hp]
  · simp [hempty]

/-- One line more is taken for the response when `isIntermediate` says so before there is a
final response. -/
theorem responseLines_concat (type : ATCommandType) {r : ATResponse} (hsuccess : r.success = false)
    (hr : r.p_intermediates.reverse = type.responseLines lines) :
    type.responseLines (lines ++ [line]) =
      if isIntermediate type r line then type.responseLines lines ++ [line]
      else type.responseLines lines := by
  have hempty : r.p_intermediates.isEmpty = (type.responseLines lines).isEmpty := by
    rw [← hr, List.isEmpty_reverse]
  unfold isIntermediate
  rw [hempty, hsuccess]
  cases type with
  | noResult => rfl
  | numeric => exact find?_concat_toList _
  | singleLine responsePrefix => exact find?_concat_toList _
  | multiLine responsePrefix =>
      by_cases hline : strStartsWith line responsePrefix = true <;>
        simp [ATCommandType.responseLines, hline]
  | multiValue responsePrefix =>
      refine (dropWhile_concat (strStartsWith · responsePrefix)).trans ?_
      change _ = if (if (lines.dropWhile fun l => !strStartsWith l responsePrefix).isEmpty = true
        then strStartsWith line responsePrefix else !false) = true then _ else _
      cases (lines.dropWhile fun l => !strStartsWith l responsePrefix).isEmpty <;>
        cases strStartsWith line responsePrefix <;> rfl

/-- The line prompts for the PDU exactly if it is the first prompt among the lines. -/
theorem prompted_iff {ac : AtContext} {sentPDU : Option Line}
    (hpdu : ac.smsPDU = if smsPrompt ∈ lines then none else sentPDU) :
    ac.prompted line = true ↔ sentPDU.isSome ∧ smsPrompt ∉ lines ∧ line = smsPrompt := by
  rw [AtContext.prompted, hpdu]
  by_cases hmem : smsPrompt ∈ lines <;> simp [hmem]

/-- What is collected with one line more. -/
theorem collected_concat (line : Line) (type : ATCommandType) {ac : AtContext} {sentPDU : Option Line}
    {r : ATResponse} (hsuccess : r.success = false)
    (hr : r.p_intermediates.reverse = collected type sentPDU lines)
    (hpdu : ac.smsPDU = if smsPrompt ∈ lines then none else sentPDU) :
    collected type sentPDU (lines ++ [line]) =
      if ac.prompted line then collected type sentPDU lines
      else if isIntermediate type r line then collected type sentPDU lines ++ [line]
      else collected type sentPDU lines := by
  unfold collected at hr ⊢
  rw [withoutPrompt_concat]
  by_cases h : ac.prompted line = true
  · rw [if_pos ((prompted_iff hpdu).mp h), if_pos h]
  · rw [if_neg fun h' => h ((prompted_iff hpdu).mpr h'), if_neg h,
      responseLines_concat type hsuccess hr]

end Collect

section Invariant

/-- What holds of the response to the pending command and of the lines received for it. -/
structure Collecting (ac : AtContext) (r : ATResponse) : Prop where
  before : ∀ l ∈ ac.received, isFinalResponse l = false
  success : r.success = false
  lines : r.p_intermediates.reverse = collected ac.type ac.sentPDU ac.received
  pdu : ac.smsPDU = if smsPrompt ∈ ac.received then none else ac.sentPDU

/-- What holds of it when a final response is recorded. -/
structure Finished (ac : AtContext) (r : ATResponse) (final : Line) : Prop where
  isFinal : isFinalResponse final = true
  success : r.success = isFinalResponseSuccess final
  after : ∃ l ∈ ac.received, isFinalResponse l = true
  lines : r.p_intermediates.reverse = intermediatesOf ac.type ac.sentPDU ac.received

/-- The invariant of the channel. -/
structure AtInv (ac : AtContext) : Prop where
  collecting : ∀ r, ac.response = some r → r.finalResponse = none → Collecting ac r
  finished : ∀ r final, ac.response = some r → r.finalResponse = some final → Finished ac r final

variable {ac : AtContext}

theorem atInv_of_none (h : ac.response = none) : AtInv ac :=
  ⟨fun r hr => absurd (h.symm.trans hr) (Option.some_ne_none r).symm,
    fun r _ hr => absurd (h.symm.trans hr) (Option.some_ne_none r).symm⟩

theorem atInv_atOpened : AtInv atOpened := atInv_of_none rfl

/-- The invariant reads only the fields about the pending command. -/
theorem AtInv.congr {ac' : AtContext} (h : AtInv ac) (hresponse : ac'.response = ac.response)
    (htype : ac'.type = ac.type) (hpdu : ac'.smsPDU = ac.smsPDU) (hsent : ac'.sentPDU = ac.sentPDU)
    (hreceived : ac'.received = ac.received) : AtInv ac' := by
  constructor
  · intro r hr hfinal
    obtain ⟨hbefore, hsuccess, hlines, hprompt⟩ := h.collecting r (hresponse ▸ hr) hfinal
    exact ⟨hreceived ▸ hbefore, hsuccess, by rw [hlines, htype, hsent, hreceived],
      by rw [hpdu, hprompt, hsent, hreceived]⟩
  · intro r final hr hfinal
    obtain ⟨hline, hsuccess, hafter, hlines⟩ := h.finished r final (hresponse ▸ hr) hfinal
    exact ⟨hline, hsuccess, hreceived ▸ hafter, by rw [hlines, htype, hsent, hreceived]⟩

/-- What `processLine` does to the response to the pending command. -/
theorem processLine_cases {r : ATResponse} (hr : ac.response = some r) (line : Line) :
    (isFinalResponse line = true ∧
      (processLine ac line).1 =
        { ac with
            response := some
              { r with success := isFinalResponseSuccess line, finalResponse := some line } }) ∨
    (isFinalResponse line = false ∧ ac.prompted line = true ∧
      (processLine ac line).1 = { ac with smsPDU := none }) ∨
    (isFinalResponse line = false ∧ ac.prompted line = false ∧
      isIntermediate ac.type r line = true ∧
      (processLine ac line).1 = { ac with response := some (addIntermediate r line) }) ∨
    (isFinalResponse line = false ∧ ac.prompted line = false ∧
      isIntermediate ac.type r line = false ∧ (processLine ac line).1 = ac) := by
  unfold processLine
  rw [hr]
  dsimp only
  by_cases hsuccess : isFinalResponseSuccess line = true
  · left
    simp [isFinalResponse, hsuccess, handleFinalResponse]
  · by_cases herror : isFinalResponseError line = true
    · left
      simp [isFinalResponse, hsuccess, herror, handleFinalResponse]
    · right
      have hfinal : isFinalResponse line = false := by simp [isFinalResponse, hsuccess, herror]
      rw [if_neg hsuccess, if_neg herror]
      by_cases hprompt : ac.prompted line = true
      · left
        simp [hfinal, hprompt]
      · right
        by_cases hinter : isIntermediate ac.type r line = true <;> simp [hfinal, hprompt, hinter]

/-- A line that comes before the final response. -/
theorem processLine_collecting {r : ATResponse} (hr : ac.response = some r)
    (hfinal : r.finalResponse = none) (h : Collecting ac r) (line : Line) :
    AtInv (processLine (ac.log line) line).1 := by
  obtain ⟨hbefore, hsuccess, hlines, hpdu⟩ := h
  have hconcat := collected_concat line ac.type hsuccess hlines hpdu
  have hlog : (ac.log line).received = ac.received ++ [line] := rfl
  have hnext : isFinalResponse line = false →
      ∀ l ∈ (ac.log line).received, isFinalResponse l = false := by
    intro hline l hl
    rcases List.mem_append.mp hl with hl | hl
    · exact hbefore l hl
    · rwa [List.mem_singleton.mp hl]
  have hprompt : ac.prompted line = true ↔
      ac.sentPDU.isSome ∧ smsPrompt ∉ ac.received ∧ line = smsPrompt := prompted_iff hpdu
  have hpdu' : ac.prompted line = false →
      ac.smsPDU = if smsPrompt ∈ ac.received ++ [line] then none else ac.sentPDU := by
    intro hnot
    rw [hpdu]
    by_cases hmem : smsPrompt ∈ ac.received
    · simp [hmem]
    · by_cases hline : smsPrompt = line
      · have hnone : ac.sentPDU = none := by
          by_contra hsome
          have := hprompt.mpr ⟨Option.isSome_iff_ne_none.mpr hsome, hmem, hline.symm⟩
          rw [hnot] at this
          cases this
        simp [hnone]
      · simp [hmem, hline]
  rcases processLine_cases (show (ac.log line).response = some r from hr) line with
    ⟨hline, heq⟩ | ⟨hline, hp, heq⟩ | ⟨hline, hp, hi, heq⟩ | ⟨hline, hp, hi, heq⟩
  · rw [heq]
    constructor
    · rintro _ ⟨⟩ hnone
      cases hnone
    · rintro _ final ⟨⟩ hsome
      cases hsome
      refine ⟨hline, rfl, ⟨line, by simp [AtContext.log], hline⟩, ?_⟩
      rw [intermediatesOf, hlog, beforeFinal_concat_final hbefore hline]
      exact hlines
  · rw [heq]
    constructor
    · intro r' hr' hnone
      cases hr.symm.trans hr'
      refine ⟨hnext hline, hsuccess, ?_, ?_⟩
      · rw [hlines]
        exact (hconcat.trans (if_pos hp)).symm
      · have hmem : smsPrompt ∈ (ac.log line).received := by
          rw [hlog, (hprompt.mp hp).2.2]
          exact List.mem_append_right _ (List.mem_singleton.mpr rfl)
        exact (if_pos hmem).symm
    · intro r' final hr' hsome
      cases hr.symm.trans hr'
      rw [hfinal] at hsome
      cases hsome
  · rw [heq]
    constructor
    · rintro _ ⟨⟩ hnone
      refine ⟨hnext hline, hsuccess, ?_, hpdu' hp⟩
      rw [if_neg (show ¬ ac.prompted line = true from Bool.eq_false_iff.mp hp),
        if_pos (show isIntermediate ac.type r line = true from hi)] at hconcat
      rw [addIntermediate, List.reverse_cons, hlines]
      exact hconcat.symm
    · rintro _ final ⟨⟩ hsome
      rw [addIntermediate, hfinal] at hsome
      cases hsome
  · rw [heq]
    constructor
    · intro r' hr' hnone
      cases hr.symm.trans hr'
      refine ⟨hnext hline, hsuccess, ?_, hpdu' hp⟩
      rw [if_neg (show ¬ ac.prompted line = true from Bool.eq_false_iff.mp hp),
        if_neg (show ¬ isIntermediate ac.type r line = true from Bool.eq_false_iff.mp hi)]
        at hconcat
      rw [hlines]
      exact hconcat.symm
    · intro r' final hr' hsome
      cases hr.symm.trans hr'
      rw [hfinal] at hsome
      cases hsome

/-- A line that comes after the final response and does no harm. -/
theorem processLine_finished {r : ATResponse} {final : Line} (hr : ac.response = some r)
    (hfinal : r.finalResponse = some final) (h : Finished ac r final) {line : Line}
    (hlate : line = final ∨ isFinalResponse line = false ∧
      (ac.prompted line = true ∨ isIntermediate ac.type r line = false)) :
    AtInv (processLine (ac.log line) line).1 ∧
      (processLine (ac.log line) line).1.response = some r := by
  obtain ⟨hline', hsuccess, hafter, hlines⟩ := h
  have hlog : (ac.log line).received = ac.received ++ [line] := rfl
  have hafter' : ∃ l ∈ (ac.log line).received, isFinalResponse l = true := by
    obtain ⟨l, hl, hlfinal⟩ := hafter
    exact ⟨l, List.mem_append_left _ hl, hlfinal⟩
  have hlines' : r.p_intermediates.reverse =
      intermediatesOf ac.type ac.sentPDU (ac.log line).received := by
    rw [hlines, intermediatesOf, intermediatesOf, hlog, beforeFinal_concat hafter]
  -- the line leaves the response as it is, and at most uses up the PDU
  have hkeep : (processLine (ac.log line) line).1.response = some r ∧
      (processLine (ac.log line) line).1.type = ac.type ∧
      (processLine (ac.log line) line).1.sentPDU = ac.sentPDU ∧
      (processLine (ac.log line) line).1.received = (ac.log line).received := by
    rcases processLine_cases (show (ac.log line).response = some r from hr) line with
      ⟨hline, heq⟩ | ⟨hline, hp, heq⟩ | ⟨hline, hp, hi, heq⟩ | ⟨hline, hp, hi, heq⟩
    · rcases hlate with rfl | ⟨hnot, _⟩
      · rw [heq]
        refine ⟨?_, rfl, rfl, rfl⟩
        cases r
        simp only at hsuccess hfinal
        rw [hsuccess, hfinal]
      · rw [hline] at hnot
        cases hnot
    · rw [heq]
      exact ⟨hr, rfl, rfl, rfl⟩
    · rcases hlate with rfl | ⟨_, hprompt | hnot⟩
      · rw [hline'] at hline
        cases hline
      · exact absurd hprompt (Bool.eq_false_iff.mp hp)
      · exact absurd hi (Bool.eq_false_iff.mp hnot)
    · rw [heq]
      exact ⟨hr, rfl, rfl, rfl⟩
  obtain ⟨hresponse, htype, hsent, hreceived⟩ := hkeep
  refine ⟨⟨fun r' hr' hnone => ?_, fun r' final' hr' hsome => ?_⟩, hresponse⟩
  · cases hresponse.symm.trans hr'
    rw [hfinal] at hnone
    cases hnone
  · cases hresponse.symm.trans hr'
    cases hfinal.symm.trans hsome
    exact ⟨hline', hsuccess, hreceived ▸ hafter', by rw [hlines', htype, hsent, hreceived]⟩

theorem atInv_endCommand (err : Option AtError) (response : Option ATResponse) :
    AtInv (endCommand ac err response).1 := atInv_of_none rfl

theorem atInv_at_send_command (h : AtInv ac) (type : ATCommandType) (smspdu : Option Line)
    (written : Bool) : AtInv (at_send_command ac type smspdu written).1 := by
  unfold at_send_command
  split_ifs
  · exact h
  · exact atInv_endCommand _ _
  · exact atInv_endCommand _ _
  · exact atInv_endCommand _ _
  · constructor
    · rintro _ ⟨⟩ _
      refine ⟨fun l hl => absurd hl List.not_mem_nil, rfl, ?_, rfl⟩
      cases type <;> cases smspdu <;> rfl
    · rintro _ _ ⟨⟩ hsome
      cases hsome

theorem atInv_at_take_response (h : AtInv ac) : AtInv (at_take_response ac).1 := by
  unfold at_take_response
  split
  · exact h
  · split
    · exact atInv_endCommand _ _
    · exact h

/-- A step that does no harm keeps the invariant. -/
theorem atInv_step (h : AtInv ac) {event : AtEvent} (hlate : LateLineHarmless ac event) :
    AtInv (atStep ac event).1 := by
  cases event with
  | send type smspdu written => exact atInv_at_send_command h type smspdu written
  | read line =>
      change AtInv (readerLoop ac line).1
      unfold readerLoop
      split
      · exact h.congr rfl rfl rfl rfl rfl
      · rename_i hline1
        split_ifs with hsms
        · exact h.congr rfl rfl rfl rfl rfl
        · have hprocessed : (AtEvent.read line).processed ac = some line := by
            simp [AtEvent.processed, hline1, hsms]
          cases hr : ac.response with
          | none =>
              have hnone : (processLine (ac.log line) line).1.response = none := by
                simp [processLine, AtContext.log, hr]
              exact atInv_of_none hnone
          | some r =>
              cases hfinal : r.finalResponse with
              | none => exact processLine_collecting hr hfinal (h.collecting r hr hfinal) line
              | some final =>
                  exact (processLine_finished hr hfinal (h.finished r final hr hfinal)
                    (hlate line r final hprocessed hr hfinal)).1
  | readerClosed => exact h.congr rfl rfl rfl rfl rfl
  | wake => exact atInv_at_take_response h
  | timeout =>
      change AtInv (if ac.requestmutex then endCommand ac (some .timeout) none else (ac, [])).1
      split_ifs
      · exact atInv_endCommand _ _
      · exact h

/-- What a step guarantees of a response, in a state with the invariant. -/
theorem returned_of_atInv (h : AtInv ac) {r : ATResponse} (hr : ac.taken = some r)
    (hfinal : r.finalResponse.isSome) :
    r.p_intermediates = intermediatesOf ac.type ac.sentPDU ac.received := by
  obtain ⟨r', hr', rfl⟩ := Option.map_eq_some_iff.mp hr
  obtain ⟨final, hsome⟩ := Option.isSome_iff_exists.mp hfinal
  exact (h.finished r' final hr' hsome).lines

/-- A step from a state with the invariant keeps what is recorded exactly if it does no
harm. -/
theorem finalKept_iff (h : AtInv ac) (event : AtEvent) :
    FinalKept ac event ↔ LateLineHarmless ac event := by
  constructor
  · intro hkept line r final hprocessed hr hfinal
    obtain ⟨hread, hline1, hsms⟩ :
        event = .read line ∧ ac.line1 = none ∧ isSMSUnsolicited line = false := by
      cases event with
      | read l =>
          simp only [AtEvent.processed] at hprocessed
          split_ifs at hprocessed with hcond
          cases hprocessed
          simpa using hcond
      | _ => cases hprocessed
    subst hread
    have hstep : (atStep ac (.read line)).1 = (processLine (ac.log line) line).1 := by
      simp [atStep, readerLoop, hline1, hsms]
    rcases processLine_cases (show (ac.log line).response = some r from hr) line with
      ⟨hline, heq⟩ | ⟨hline, hp, heq⟩ | ⟨hline, hp, hi, heq⟩ | ⟨hline, hp, hi, heq⟩
    · obtain ⟨r', hr', _, hsame⟩ := hkept.kept line r final rfl hr hfinal
      rw [hstep, heq] at hr'
      cases hr'
      exact .inl (Option.some.inj hsame)
    · exact .inr ⟨hline, .inl hp⟩
    · -- the line would be returned with the intermediate lines before the final response
      exfalso
      have hfinished := h.finished r final hr hfinal
      have hreturned := hkept.returned (reverseIntermediates (addIntermediate r line))
        (by rw [hstep, heq]; rfl) (by simp [reverseIntermediates, addIntermediate, hfinal])
      rw [hstep, heq] at hreturned
      have hsame : intermediatesOf ac.type ac.sentPDU (ac.received ++ [line]) =
          r.p_intermediates.reverse := by
        rw [intermediatesOf, beforeFinal_concat hfinished.after]
        exact hfinished.lines.symm
      have hlen := congrArg List.length (hreturned.trans hsame)
      simp [reverseIntermediates, addIntermediate] at hlen
    · exact .inr ⟨hline, .inr hi⟩
  · intro hlate
    refine ⟨?_, fun r hr hfinal => returned_of_atInv (atInv_step h hlate) hr hfinal⟩
    rintro line r final rfl hr hfinal
    have hsame : (atStep ac (.read line)).1.response = some r := by
      change (readerLoop ac line).1.response = some r
      unfold readerLoop
      split
      · exact hr
      · rename_i hline1
        split_ifs with hsms
        · exact hr
        · have hprocessed : (AtEvent.read line).processed ac = some line := by
            simp [AtEvent.processed, hline1, hsms]
          exact (processLine_finished hr hfinal (h.finished r final hr hfinal)
            (hlate line r final hprocessed hr hfinal)).2
    exact ⟨r, hsame, rfl, hfinal⟩

end Invariant

/-- In a run of the channel, what is recorded for a command is kept, and the intermediate
responses are the intermediate lines before the final one, exactly if no line does harm that
comes between the final response and the thread that takes it. -/
theorem meets_finalKept_iff (events : List AtEvent) :
    Meets atStep FinalKept atOpened events ↔ Meets atStep LateLineHarmless atOpened events := by
  constructor
  · exact meets_of_invariant (I := AtInv)
      (fun s i hs hi => atInv_step hs ((finalKept_iff hs i).mp hi))
      (fun s i hs hi => (finalKept_iff hs i).mp hi) atInv_atOpened
  · exact meets_of_invariant (I := AtInv) (fun s i hs hi => atInv_step hs hi)
      (fun s i hs hi => (finalKept_iff hs i).mpr hi) atInv_atOpened

/-- A line with the prefix of the command comes after `OK`, and is returned as intermediate. -/
theorem not_finalKept_late_line : ¬ ∀ events, Meets atStep FinalKept atOpened events := by
  intro h
  have hrun := h [.send (.singleLine "+CSQ:".toList) none true, .read "OK".toList,
    .read "+CSQ: 9,99".toList]
  have hlast := hrun.2.2.1.returned
    { success := true, finalResponse := some "OK".toList,
      p_intermediates := ["+CSQ: 9,99".toList] } rfl rfl
  revert hlast
  decide

end Ril

end SierraSdk
