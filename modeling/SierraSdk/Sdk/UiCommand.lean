import SierraSdk.Sl.Strtok
import SierraSdk.Qm.DcsContent

/-!
# The command lines of the user interface

The application sends a command line, which is put in a buffer of zeros, and converted to upper case
there. The first word of the line names a command of the main table. It may be abbreviated, as long as
there is only one command that begins with it. The command has a table of its own, in which
the rest of the line is looked up in the same way, or a function, which is given the rest of the line.

`Dispatches` says what becomes of a line, by the words in it. The rest of a line that ends with a word
is what the buffer holds behind the zero of the word, so that a line must leave room for a second zero.
-/

namespace SierraSdk

namespace Sdk

open Memory MemoryText Sl

/-- The size of the buffer of an event. -/
def uiBufSz : ℕ := 512

def ascii (s : String) : List UInt8 := s.toList.map fun c => c.toNat.toUInt8

/-- The delimiters of the words. -/
def delimit : List UInt8 := [32]

variable {T F : Type*}

/-- What a command leads to: the table of its sub commands, or else its function. -/
inductive UiAction (T F : Type*) where
  | SubTblp (cTablep : T)
  | cmdFp (f : F)

/-- An entry of a table of commands. -/
structure UiCmd (T F : Type*) where
  cmdStrp : List UInt8
  action : UiAction T F
  cmdHelp : Option (List UInt8)

/-- What a line does: the function that is called, with the memory and the pointer that it is given,
and the texts that are sent to the application. -/
structure UiRun (F : Type*) where
  called : Option (F × (ℕ → UInt8) × ℕ)
  uiOutput : List (List UInt8)

/-- What `snprintf` leaves in a buffer of this size. -/
def snprintf (size : ℕ) (text : List UInt8) : List UInt8 := text.take (size - 1)

/-- A command with its help; a null pointer is printed as such. -/
def UiCmd.usage (c : UiCmd T F) : List UInt8 :=
  c.cmdStrp ++ ascii " " ++ c.cmdHelp.getD (ascii "(null)")

def uiProcCmdHelp (cTable : List (UiCmd T F)) : List (List UInt8) :=
  ascii "Commands:\r\n" :: cTable.map (fun c => snprintf 128 c.usage) ++ [ascii "OK"]

/-- What is sent once the function of a command has returned. -/
def UiCmd.report (c : UiCmd T F) (returned : List (List UInt8) × Bool) : List (List UInt8) :=
  returned.1 ++
    if returned.2 then [ascii "OK"]
    else [ascii "Command syntax:\r\n", snprintf uiBufSz (c.usage ++ ascii "\r\n"), ascii "OK"]

/-- `uiProcCmd`, with as many nested tables as there is fuel. A function sends texts and returns
whether its command was processed. -/
def uiProcCmd (tables : T → List (UiCmd T F))
    (cmd : F → (ℕ → UInt8) → ℕ → List (List UInt8) × Bool) : ℕ → T → (ℕ → UInt8) → ℕ → UiRun F
  | 0, _, _, _ => ⟨none, []⟩
  | fuel + 1, cTablep, d, cmdp =>
      if d cmdp = 0 then ⟨none, uiProcCmdHelp (tables cTablep)⟩
      else
        let strtok := slstrtok uiBufSz d (some cmdp) delimit 0
        match strtok.resultp with
        | none => ⟨none, []⟩
        | some tokenp =>
            let len := slstrlen strtok.d uiBufSz tokenp
            let restCmdTokenp := tokenp + len + 1
            let found := (tables cTablep).filter fun c =>
              Qm.slstrncmp c.cmdStrp (load strtok.d tokenp len) len
            match found with
            | [c] =>
                match c.action with
                | .SubTblp t => uiProcCmd tables cmd fuel t strtok.d restCmdTokenp
                | .cmdFp f =>
                    ⟨some (f, strtok.d, restCmdTokenp), c.report (cmd f strtok.d restCmdTokenp)⟩
            | _ => ⟨none, uiProcCmdHelp (tables cTablep)⟩

def sltoupper (c : UInt8) : UInt8 := if 97 ≤ c ∧ c ≤ 122 then c - 97 + 65 else c

/-- Convert a command line to upper case, where it stands. -/
def toUpperAt : ℕ → (ℕ → UInt8) → ℕ → (ℕ → UInt8)
  | 0, d, _ => d
  | n + 1, d, lcmdp =>
      if d lcmdp = 0 then d else toUpperAt n (store d lcmdp [sltoupper (d lcmdp)]) (lcmdp + 1)

/-- `uiprocuidlreq`, with the buffer at address `0`. -/
def uiprocuidlreq (tables : T → List (UiCmd T F))
    (cmd : F → (ℕ → UInt8) → ℕ → List (List UInt8) × Bool) (uiMainTbl : T) (uireqstr : ℕ → UInt8) : UiRun F :=
  uiProcCmd tables cmd uiBufSz uiMainTbl (toUpperAt uiBufSz uireqstr 0) 0

/-- `uisenduireqevt`: the message is copied to a buffer of zeros. -/
def uisenduireqevt (msg : List UInt8) : ℕ → UInt8 := store (fun _ => 0) 0 msg

section Dispatch

/-- What becomes of a line: the help of a table, nothing, or a command with the rest of the line. -/
inductive UiOutcome (T F : Type*) where
  | help (cTablep : T)
  | nothing
  | run (c : UiCmd T F) (f : F) (args : List UInt8)

/-- The commands of a table that begin with a word. -/
def named (cTable : List (UiCmd T F)) (word : List UInt8) : List (UiCmd T F) :=
  cTable.filter fun c => word.isPrefixOf c.cmdStrp

/-- The word that a line begins with, behind its blanks. -/
def lineWord (line : List UInt8) : List UInt8 := firstToken delimit line

/-- What is behind the first word of a line and the blank behind it. -/
def lineRest (line : List UInt8) : List UInt8 := (behindToken delimit line).tail

/-- What becomes of a line that is looked up in a table. -/
inductive Dispatches (tables : T → List (UiCmd T F)) : T → List UInt8 → UiOutcome T F → Prop where
  | empty (t : T) : Dispatches tables t [] (.help t)
  | blank (t : T) {line : List UInt8} (hne : line ≠ []) (hword : fromToken delimit line = []) :
      Dispatches tables t line .nothing
  | unknown {t : T} {line : List UInt8} (hword : fromToken delimit line ≠ [])
      (hnone : ∀ c, named (tables t) (lineWord line) ≠ [c]) : Dispatches tables t line (.help t)
  | command {t : T} {line : List UInt8} {c : UiCmd T F} {f : F}
      (hword : fromToken delimit line ≠ []) (hone : named (tables t) (lineWord line) = [c])
      (haction : c.action = .cmdFp f) : Dispatches tables t line (.run c f (lineRest line))
  | menu {t t' : T} {line : List UInt8} {c : UiCmd T F} {o : UiOutcome T F}
      (hword : fromToken delimit line ≠ []) (hone : named (tables t) (lineWord line) = [c])
      (haction : c.action = .SubTblp t') (hnext : Dispatches tables t' (lineRest line) o) :
      Dispatches tables t line o

/-- What the code is to do for an outcome. -/
def Performs (tables : T → List (UiCmd T F))
    (cmd : F → (ℕ → UInt8) → ℕ → List (List UInt8) × Bool) (r : UiRun F) :
    UiOutcome T F → Prop
  | .help t => r = ⟨none, uiProcCmdHelp (tables t)⟩
  | .nothing => r = ⟨none, []⟩
  | .run c f args => ∃ d a, Text d a args ∧ r = ⟨some (f, d, a), c.report (cmd f d a)⟩

variable {tables : T → List (UiCmd T F)}
  {cmd : F → (ℕ → UInt8) → ℕ → List (List UInt8) × Bool} {t : T} {line : List UInt8}

theorem fromToken_nil (sldelimitp : List UInt8) : fromToken sldelimitp [] = [] := rfl

/-- A line has one outcome at most. -/
theorem Dispatches.unique {o o' : UiOutcome T F} (h : Dispatches tables t line o)
    (h' : Dispatches tables t line o') : o = o' := by
  induction h with
  | empty t =>
      cases h' with
      | empty => rfl
      | blank _ hne => exact absurd rfl hne
      | unknown hword => exact absurd (fromToken_nil _) hword
      | command hword => exact absurd (fromToken_nil _) hword
      | menu hword => exact absurd (fromToken_nil _) hword
  | blank t hne hblank =>
      cases h' with
      | empty => exact absurd rfl hne
      | blank => rfl
      | unknown hword => exact absurd hblank hword
      | command hword => exact absurd hblank hword
      | menu hword => exact absurd hblank hword
  | unknown hword hnone =>
      cases h' with
      | empty => exact absurd (fromToken_nil _) hword
      | blank _ _ hblank => exact absurd hblank hword
      | unknown => rfl
      | command _ hone => exact absurd hone (hnone _)
      | menu _ hone => exact absurd hone (hnone _)
  | command hword hone haction =>
      cases h' with
      | empty => exact absurd (fromToken_nil _) hword
      | blank _ _ hblank => exact absurd hblank hword
      | unknown _ hnone => exact absurd hone (hnone _)
      | command _ hone' haction' =>
          obtain rfl := List.singleton_inj.mp (hone.symm.trans hone')
          obtain rfl := UiAction.cmdFp.inj (haction.symm.trans haction')
          rfl
      | menu _ hone' haction' =>
          obtain rfl := List.singleton_inj.mp (hone.symm.trans hone')
          cases haction.symm.trans haction'
  | menu hword hone haction hnext ih =>
      cases h' with
      | empty => exact absurd (fromToken_nil _) hword
      | blank _ _ hblank => exact absurd hblank hword
      | unknown _ hnone => exact absurd hone (hnone _)
      | command _ hone' haction' =>
          obtain rfl := List.singleton_inj.mp (hone.symm.trans hone')
          cases haction.symm.trans haction'
      | menu _ hone' haction' hnext' =>
          obtain rfl := List.singleton_inj.mp (hone.symm.trans hone')
          obtain rfl := UiAction.SubTblp.inj (haction.symm.trans haction')
          exact ih hnext'

/-- A word without zeros is compared with a command as far as the word goes. -/
theorem slstrncmp_word {word cmdStrp : List UInt8} (hword : ∀ c ∈ word, c ≠ 0) :
    Qm.slstrncmp cmdStrp word word.length = word.isPrefixOf cmdStrp := by
  induction word generalizing cmdStrp with
  | nil => simp [Qm.slstrncmp]
  | cons w word ih =>
      obtain ⟨hw, hword⟩ := List.forall_mem_cons.mp hword
      rw [List.length_cons, Qm.slstrncmp]
      cases cmdStrp with
      | nil => simp [hw.symm]
      | cons c cmdStrp =>
          simp only [List.headD_cons, List.tail_cons, ih hword, List.isPrefixOf_cons_cons]
          by_cases hcw : c = w
          · simp [hcw, hw]
          · simp [hcw, Ne.symm hcw]

theorem lineRest_length_lt (hword : fromToken delimit line ≠ []) :
    (lineRest line).length < line.length := by
  have hlen := length_tokens 0 delimit line
  have hpos := List.length_pos_iff.mpr (firstToken_ne_nil hword)
  rw [lineRest, List.length_tail]
  omega

variable (tables cmd t) in
/-- What the turn of `uiProcCmd` for a table does with a line that has a word. -/
theorem uiProcCmd_succ (fuel : ℕ) {d : ℕ → UInt8} {i : ℕ} (h : Text d i line)
    (hlen : line.length < uiBufSz) (hword : fromToken delimit line ≠ []) :
    ∃ d', uiProcCmd tables cmd (fuel + 1) t d i =
        (match named (tables t) (lineWord line) with
        | [c] =>
            match c.action with
            | .SubTblp t' => uiProcCmd tables cmd fuel t' d'
                (tokenStart i delimit line + (lineWord line).length + 1)
            | .cmdFp f =>
                ⟨some (f, d', tokenStart i delimit line + (lineWord line).length + 1),
                  c.report (cmd f d' (tokenStart i delimit line + (lineWord line).length + 1))⟩
        | _ => ⟨none, uiProcCmdHelp (tables t)⟩) ∧
      (d (i + line.length + 1) = 0 →
        Text d' (tokenStart i delimit line + (lineWord line).length + 1) (lineRest line) ∧
          (lineRest line ≠ [] → d' (tokenStart i delimit line + (lineWord line).length + 1 +
            (lineRest line).length + 1) = 0)) := by
  have hcall : TakesToken d i line delimit (slstrtok uiBufSz d (some i) delimit 0) :=
    slstrtok_some (some i) h hlen hword
  refine ⟨(slstrtok uiBufSz d (some i) delimit 0).d, ?_, hcall.behind delimit⟩
  have hne : d i ≠ 0 := fun hzero =>
    hword (by rw [h.unique (text_nil_iff.mpr hzero), fromToken_nil])
  have htoken : Text (slstrtok uiBufSz d (some i) delimit 0).d (tokenStart i delimit line)
      (lineWord line) := hcall.token
  have hlength : (lineWord line).length < uiBufSz := by
    have htokens := length_tokens 0 delimit line
    change 0 + _ + ((lineWord line).length + _) = _ at htokens
    omega
  have hfound : ((tables t).filter fun c => Qm.slstrncmp c.cmdStrp
      (load (slstrtok uiBufSz d (some i) delimit 0).d (tokenStart i delimit line)
        (lineWord line).length) (lineWord line).length) = named (tables t) (lineWord line) := by
    rw [htoken.load_eq]
    exact List.filter_congr fun c _ => slstrncmp_word htoken.ne_zero
  rw [uiProcCmd, if_neg hne]
  simp only [hcall.resultp, slstrlen_text htoken hlength, hfound]
  rfl

variable (cmd) in
/-- `uiProcCmd` does what is to become of a line. -/
theorem uiProcCmd_performs {fuel : ℕ} {d : ℕ → UInt8} {i : ℕ} (h : Text d i line)
    (hzero : line ≠ [] → d (i + line.length + 1) = 0) (hlen : line.length < uiBufSz)
    (hfuel : line.length < fuel) :
    ∃ o, Dispatches tables t line o ∧ Performs tables cmd (uiProcCmd tables cmd fuel t d i) o := by
  induction fuel generalizing t d i line with
  | zero => exact absurd hfuel (Nat.not_lt_zero _)
  | succ fuel ih =>
      by_cases hempty : line = []
      · rw [hempty] at h ⊢
        exact ⟨.help t, .empty t, if_pos (text_nil_iff.mp h)⟩
      by_cases hword : fromToken delimit line = []
      · have hne : d i ≠ 0 := fun hzero => hempty (h.unique (text_nil_iff.mpr hzero))
        refine ⟨.nothing, .blank t hempty hword, ?_⟩
        have hcall : slstrtok uiBufSz d (some i) delimit 0 = ⟨d, 0, none⟩ :=
          slstrtok_none (some i) h hlen hword
        change uiProcCmd tables cmd (fuel + 1) t d i = _
        rw [uiProcCmd, if_neg hne, hcall]
      obtain ⟨d', hturn, hrest⟩ := uiProcCmd_succ tables cmd t fuel h hlen hword
      obtain ⟨htext, hbehind⟩ := hrest (hzero hempty)
      rw [hturn]
      by_cases hone : ∃ c, named (tables t) (lineWord line) = [c]
      · obtain ⟨c, hone⟩ := hone
        rw [hone]
        cases haction : c.action with
        | cmdFp f =>
            exact ⟨.run c f (lineRest line), .command hword hone haction, _, _, htext,
              by simp only [haction]⟩
        | SubTblp t' =>
            have hshort := lineRest_length_lt hword
            obtain ⟨o, ho, hperforms⟩ := ih (t := t') htext hbehind (hshort.trans hlen) (by omega)
            exact ⟨o, .menu hword hone haction ho, by simpa only [haction] using hperforms⟩
      · refine ⟨.help t, .unknown hword fun c hc => hone ⟨c, hc⟩, ?_⟩
        change _ = (⟨none, uiProcCmdHelp (tables t)⟩ : UiRun F)
        split
        · exact absurd ⟨_, ‹_›⟩ hone
        · rfl

end Dispatch

section Tables

/-- The tables of the user interface. -/
inductive UiTable where
  | uiMainTbl
  | uiDLTbl

/-- The functions of its commands. -/
inductive UiFunction where
  | uidlctrlon
  | uidlctrloff
  | uidlctrllist

def uiTables : UiTable → List (UiCmd UiTable UiFunction)
  | .uiMainTbl =>
      [{ cmdStrp := ascii "DL"
         action := .SubTblp .uiDLTbl
         cmdHelp := some (ascii "[<subcmnd> [<params>]]") }]
  | .uiDLTbl =>
      [{ cmdStrp := ascii "ON"
         action := .cmdFp .uidlctrlon
         cmdHelp := some (ascii "<package id> [<classmask (4-digit HEX)>]") },
       { cmdStrp := ascii "OFF"
         action := .cmdFp .uidlctrloff
         cmdHelp := some (ascii "<package id>") },
       { cmdStrp := ascii "LIST"
         action := .cmdFp .uidlctrllist
         cmdHelp := none }]

end Tables

section Request

variable {tables : T → List (UiCmd T F)}
  {cmd : F → (ℕ → UInt8) → ℕ → List (List UInt8) × Bool} {line : List UInt8}

theorem sltoupper_ne_zero {c : UInt8} (h : c ≠ 0) : sltoupper c ≠ 0 := by
  unfold sltoupper
  split_ifs with hlower
  · intro hzero
    have hge : 97 ≤ c.toNat := UInt8.le_iff_toNat_le.mp hlower.1
    have hle : c.toNat ≤ 122 := UInt8.le_iff_toNat_le.mp hlower.2
    have hsum := congrArg UInt8.toNat hzero
    rw [UInt8.toNat_add, UInt8.toNat_sub_of_le _ _ hlower.1] at hsum
    change (c.toNat - 97 + 65) % 256 = 0 at hsum
    omega
  · exact h

/-- The line is converted where it stands. -/
theorem toUpperAt_eq {n : ℕ} {d : ℕ → UInt8} {i : ℕ} (h : Text d i line) (hn : line.length < n) :
    toUpperAt n d i = store d i (line.map sltoupper) := by
  induction line generalizing n d i with
  | nil =>
      obtain ⟨m, rfl⟩ := Nat.exists_eq_add_one_of_ne_zero (Nat.ne_zero_of_lt hn)
      rw [toUpperAt, if_pos (text_nil_iff.mp h), List.map_nil, store_nil]
  | cons c line ih =>
      obtain ⟨m, rfl⟩ := Nat.exists_eq_add_one_of_ne_zero (Nat.ne_zero_of_lt hn)
      obtain ⟨hc, hne, hline⟩ := text_cons_iff.mp h
      rw [toUpperAt, hc, if_neg hne,
        ih (hline.store_of_lt (Nat.lt_succ_self i) _) (Nat.lt_of_succ_lt_succ hn)]
      exact store_append d i [sltoupper c] _

/-- The line in the buffer of the event. -/
theorem text_uisenduireqevt (hline : ∀ c ∈ line, c ≠ 0) : Text (uisenduireqevt line) 0 line :=
  ⟨load_store _ 0 line, store_of_ge (Nat.le_refl _), hline⟩

/-- All that is sent for a line ends with the text that says that there is nothing more. -/
theorem Performs.last {o : UiOutcome T F} {r : UiRun F} (h : Performs tables cmd r o) :
    r.uiOutput.getLast? = some (ascii "OK") ∨ o = .nothing := by
  cases o with
  | help t =>
      obtain rfl : r = _ := h
      exact .inl (List.getLast?_concat ..)
  | nothing => exact .inr rfl
  | run c f args =>
      obtain ⟨d, a, -, rfl⟩ := h
      left
      change (c.report (cmd f d a)).getLast? = _
      unfold UiCmd.report
      split_ifs <;> simp

/-- A line that turns the log of a package on. -/
def onLine : List UInt8 := ascii "dl on hp"

theorem onLine_all : onLine.all (fun c => decide (c ≠ 0)) = true := by decide

theorem onLine_ne_zero : ∀ c ∈ onLine, c ≠ 0 := fun c hc =>
  of_decide_eq_true (List.all_eq_true.mp onLine_all c hc)

end Request

end Sdk

end SierraSdk
