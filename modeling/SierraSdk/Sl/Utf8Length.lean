import Mathlib.Data.BitVec
import Mathlib.Data.Int.Notation
import SierraSdk.Library.Memory

/-!
# slstrlenutf8

`slstrlenutf8` counts the bytes of a text that continue a character: byte by byte up to an
address that is aligned to machine words, word by word until a word has a zero byte, and byte by
byte in that word. Its masks are multiples of `ONEMASK`, which is meant to have a one in every
byte and is computed as `(swi_ssize_t)(-1) / 0xFF`. But `swi_ssize_t` is signed, so that the
division gives zero. With no mask no word has a zero byte, and the loop over the words does not
end; and if the text ends before the first word, the loop in front of it goes on behind the end.

So the function never returns the number of characters (`not_countsCharacters`).
-/

namespace SierraSdk

namespace Sl

open Memory

/-- The machine words that `long` stands for. -/
inductive Abi where
  | ilp32
  | lp64
  deriving DecidableEq

namespace Abi

/-- `sizeof(swi_ssize_t)` -/
def wordSize : Abi → ℕ
  | ilp32 => 4
  | lp64 => 8

/-- `ONEMASK`, a division of signed numbers. -/
def oneMask (abi : Abi) : BitVec (8 * abi.wordSize) := BitVec.sdiv (-1) 0xff

end Abi

/-- The word at an address, lowest byte first. -/
def word (abi : Abi) (d : ℕ → UInt8) (lsp : ℕ) : BitVec (8 * abi.wordSize) :=
  BitVec.ofNat _ ((load d lsp abi.wordSize).foldr (fun b n => b.toNat + 256 * n) 0)

/-- Whether a byte continues a character, as a number. -/
def continues (b : UInt8) : ℤ := ((b >>> 7) &&& (~~~b >>> 6)).toNat

/-- The loop before the first word: where it ends, the number of bytes that continue a
character, and whether no zero byte was met. -/
def headLoop (abi : Abi) (d : ℕ → UInt8) : ℕ → ℕ → ℤ → Bool → Option (ℕ × ℤ × Bool)
  | 0, _, _, _ => none
  | fuel + 1, lsp, count, notDone =>
      if lsp % abi.wordSize = 0 then some (lsp, count, notDone)
      else
        headLoop abi d fuel (lsp + 1) (count + continues (d lsp)) (notDone && d lsp != 0)

/-- The loop over the words. -/
def wordLoop (abi : Abi) (d : ℕ → UInt8) : ℕ → ℕ → ℤ → Option (ℕ × ℤ)
  | 0, _, _ => none
  | fuel + 1, lsp, count =>
      let u := word abi d lsp
      if (u - abi.oneMask) &&& ~~~u &&& (abi.oneMask * 0x80) ≠ 0 then some (lsp, count)
      else
        let v := ((u &&& (abi.oneMask * 0x80)).sshiftRight 7) &&& ((~~~u).sshiftRight 6)
        wordLoop abi d fuel (lsp + abi.wordSize)
          (count + ((v * abi.oneMask).sshiftRight ((abi.wordSize - 1) * 8)).toInt)

/-- The loop in the word with the zero byte. -/
def tailLoop (d : ℕ → UInt8) : ℕ → ℕ → ℤ → Option (ℕ × ℤ)
  | 0, _, _ => none
  | fuel + 1, lsp, count =>
      if d lsp = 0 then some (lsp, count) else tailLoop d fuel (lsp + 1) (count + continues (d lsp))

/-- What is returned for the text at `sp`, and the end of the memory that was read; `fuel` bounds
the rounds of each loop. -/
def slstrlenutf8 (abi : Abi) (fuel : ℕ) (d : ℕ → UInt8) (sp : ℕ) : Option (ℤ × ℕ) := do
  let (lsp, count, notDone) ← headLoop abi d fuel sp 0 true
  if notDone then
    let (wsp, count) ← wordLoop abi d fuel lsp count
    let (lsp, count) ← tailLoop d fuel wsp count
    return ((lsp : ℤ) - sp - count, wsp + abi.wordSize)
  else return ((lsp : ℤ) - sp - count, lsp)

/-- A text without zero bytes lies at `sp`, with a zero byte behind it. -/
structure TextAt (d : ℕ → UInt8) (sp : ℕ) (text : List UInt8) : Prop where
  bytes : load d sp (text.length + 1) = text ++ [0]
  nonzero : ∀ b ∈ text, b ≠ 0

/-- The number of bytes that begin a character: those whose two highest bits are not `10`. -/
def characters (text : List UInt8) : ℕ := text.countP fun b => b &&& 0xc0 ≠ 0x80

/-- The function returns the number of characters, and reads nothing behind the word with the
zero byte. -/
def CountsCharacters (abi : Abi) (d : ℕ → UInt8) (sp : ℕ) (text : List UInt8) : Prop :=
  ∃ fuel stop, slstrlenutf8 abi fuel d sp = some ((characters text : ℤ), stop) ∧
    stop ≤ ((sp + text.length) / abi.wordSize + 1) * abi.wordSize

section Never

variable {abi : Abi} {d : ℕ → UInt8}

theorem oneMask_eq_zero (abi : Abi) : abi.oneMask = 0 := by
  cases abi with
  | ilp32 => decide
  | lp64 => decide

/-- Without a mask the loop over the words goes on for ever. -/
theorem wordLoop_eq_none (fuel lsp : ℕ) (count : ℤ) : wordLoop abi d fuel lsp count = none := by
  induction fuel generalizing lsp count with
  | zero => rfl
  | succ fuel ih =>
      have hmask : ¬ (word abi d lsp - abi.oneMask) &&& ~~~(word abi d lsp) &&&
          (abi.oneMask * 0x80) ≠ 0 := by
        rw [oneMask_eq_zero]
        simp
      simp only [wordLoop, if_neg hmask]
      exact ih _ _

theorem continues_eq (b : UInt8) : continues b = if b &&& 0xc0 = 0x80 then 1 else 0 := by
  have hall : ∀ n < 256, continues (UInt8.ofNat n) =
      if UInt8.ofNat n &&& 0xc0 = 0x80 then 1 else 0 := by
    decide +kernel
  have hb := hall b.toNat b.toNat_lt
  rwa [UInt8.ofNat_toNat] at hb

/-- What the first loop returns: the bytes it went over that begin a character, and whether one
of them is zero. -/
theorem headLoop_eq {fuel lsp lsp' : ℕ} {count count' : ℤ} {notDone notDone' : Bool}
    (h : headLoop abi d fuel lsp count notDone = some (lsp', count', notDone')) :
    ∃ bytes, load d lsp bytes.length = bytes ∧ lsp' = lsp + bytes.length ∧
      (lsp' : ℤ) - lsp - (count' - count) = characters bytes ∧
      notDone' = (notDone && bytes.all (· != 0)) := by
  induction fuel generalizing lsp count notDone with
  | zero => exact absurd h.symm (Option.some_ne_none _)
  | succ fuel ih =>
      unfold headLoop at h
      split_ifs at h with haligned
      · simp only [Option.some.injEq, Prod.mk.injEq] at h
        obtain ⟨rfl, rfl, rfl⟩ := h
        exact ⟨[], rfl, rfl, by simp [characters], by simp⟩
      · obtain ⟨bytes, hload, hend, hcount, hdone⟩ := ih h
        refine ⟨d lsp :: bytes, ?_, ?_, ?_, ?_⟩
        · rw [List.length_cons, load_succ, hload]
        · rw [hend, List.length_cons]
          omega
        · have hfirst : (characters (d lsp :: bytes) : ℤ) =
              characters bytes + (1 - continues (d lsp)) := by
            rw [characters, List.countP_cons, continues_eq]
            split_ifs with hcontinues <;> simp_all [characters]
          rw [hfirst, ← hcount]
          omega
        · rw [hdone, List.all_cons, Bool.and_assoc]

/-- A loaded text with a zero byte among its bytes goes beyond the text. -/
theorem TextAt.characters_lt {sp : ℕ} {text bytes : List UInt8} (h : TextAt d sp text)
    (hload : load d sp bytes.length = bytes) (hzero : bytes.all (· != 0) = false) :
    characters text < characters bytes := by
  have hlong : text.length + 1 ≤ bytes.length := by
    by_contra hshort
    have htake : bytes = text.take bytes.length := by
      have hle : bytes.length ≤ text.length + 1 := by omega
      calc bytes = (load d sp (text.length + 1)).take bytes.length := by
            rw [take_load d sp hle, hload]
        _ = text.take bytes.length := by
            rw [h.bytes, List.take_append_of_le_length (by omega)]
    have hall : bytes.all (· != 0) = true := by
      rw [List.all_eq_true]
      intro b hb
      rw [htake] at hb
      simpa using h.nonzero b (List.mem_of_mem_take hb)
    rw [hzero] at hall
    exact Bool.noConfusion hall
  obtain ⟨k, hk⟩ := Nat.exists_eq_add_of_le hlong
  have hsplit : bytes = text ++ [0] ++ load d (sp + (text.length + 1)) k := by
    rw [← h.bytes, ← load_add, ← hk, hload]
  have hbegins : characters [0] = 1 := by decide
  have hcount : characters bytes = characters text + characters [0] +
      characters (load d (sp + (text.length + 1)) k) := by
    rw [hsplit]
    simp only [characters, List.countP_append]
  omega

/-- The function never returns the number of characters. -/
theorem not_countsCharacters (abi : Abi) (d : ℕ → UInt8) (sp : ℕ) (text : List UInt8)
    (h : TextAt d sp text) : ¬ CountsCharacters abi d sp text := by
  rintro ⟨fuel, stop, hrun, -⟩
  unfold slstrlenutf8 at hrun
  cases hhead : headLoop abi d fuel sp 0 true with
  | none => simp [hhead] at hrun
  | some r =>
      obtain ⟨lsp, count, notDone⟩ := r
      obtain ⟨bytes, hload, hend, hcount, hdone⟩ := headLoop_eq hhead
      rw [hhead] at hrun
      cases notDone with
      | true => simp [wordLoop_eq_none] at hrun
      | false =>
          have hmore := h.characters_lt hload (by simpa using hdone.symm)
          simp at hrun
          omega

end Never

/-- A text of three characters. -/
def abc : ℕ → UInt8 := ofList 0 [0x61, 0x62, 0x63]

theorem textAt_abc : TextAt abc 0 [0x61, 0x62, 0x63] := ⟨by decide, by simp⟩

theorem not_countsCharacters_abc : ¬ CountsCharacters .lp64 abc 0 [0x61, 0x62, 0x63] :=
  not_countsCharacters .lp64 abc 0 [0x61, 0x62, 0x63] textAt_abc

/-- At an aligned address the function does not return at all. -/
theorem slstrlenutf8_abc :
    (∀ fuel, slstrlenutf8 .lp64 fuel abc 0 = none) ∧
      ¬ CountsCharacters .lp64 abc 0 [0x61, 0x62, 0x63] := by
  have hnone : ∀ fuel, slstrlenutf8 .lp64 fuel abc 0 = none := by
    intro fuel
    cases fuel with
    | zero => rfl
    | succ fuel =>
        have hhead : headLoop .lp64 abc (fuel + 1) 0 0 true = some (0, 0, true) := rfl
        rw [slstrlenutf8, hhead]
        simp [wordLoop_eq_none]
  refine ⟨hnone, ?_⟩
  rintro ⟨fuel, stop, hrun, -⟩
  rw [hnone] at hrun
  exact absurd hrun.symm (Option.some_ne_none _)

/-- Before the first word the bytes behind the end are counted, and the zero byte as well. -/
example : slstrlenutf8 .lp64 8 (ofList 0 [0x00, 0x61, 0x00, 0x62, 0x63]) 1 = some (7, 8) := by
  decide +kernel

end Sl

end SierraSdk
