import SierraSdk.Library.CNumerals
import Mathlib.Data.List.TakeWhile

/-!
# The AT tokenizer

The tokens of an AT response are separated by commas, and a token may stand in quotation marks. The
cursor is the rest of the response, or `NULL` when the last token was not quoted and has been
taken; behind a quoted one it is the empty rest.

`tokenise_fields` says what the calls give for a response that fields were written to: their texts,
as long as no field without quotation marks begins with white space, which `nextTok` skips.

Texts are without the null character that ends them.
-/

namespace SierraSdk

namespace Ril

namespace AtTok

open CNumerals

/-- What `p_cur` points to. -/
abbrev Cursor := Option (List Char)

section Tokens

/-- `strsep`: the text in front of the delimiter, and the rest behind it. -/
def strsep (delimiter : Char) (text : List Char) : List Char × Cursor :=
  (text.takeWhile (· ≠ delimiter),
    match text.dropWhile (· ≠ delimiter) with
    | [] => none
    | _ :: rest => some rest)

/-- `at_tok_start`: the rest behind the first colon. -/
def atTokStart (p_cur : Cursor) : ℤ × Cursor :=
  match p_cur.bind fun text => (strsep ':' text).2 with
  | none => (-1, none)
  | some rest => (0, some rest)

def skipWhiteSpace (p_cur : Cursor) : Cursor := p_cur.map (List.dropWhile isSpace)

/-- The rest behind the next comma, or the end of the response. -/
def skipNextComma (p_cur : Cursor) : Cursor :=
  p_cur.map fun text => (text.dropWhile (· ≠ ',')).tail

def nextTok (p_cur : Cursor) : Option (List Char) × Cursor :=
  match skipWhiteSpace p_cur with
  | none => (none, none)
  | some ('"' :: text) => (some (strsep '"' text).1, skipNextComma (strsep '"' text).2)
  | some text => (some (strsep ',' text).1, (strsep ',' text).2)

/-- `at_tok_hasmore` -/
def atTokHasmore (p_cur : Cursor) : Bool := p_cur.any (· ≠ [])

/-- What a token call returns, and what it leaves in its output and its cursor. -/
structure TokReturn (α : Type) where
  ret : ℤ
  p_out : α
  p_cur : Cursor

/-- `at_tok_nextstr` -/
def atTokNextstr (p_cur : Cursor) (p_out : Option (List Char)) : TokReturn (Option (List Char)) :=
  if p_cur.isNone then ⟨-1, p_out, p_cur⟩
  else ⟨0, (nextTok p_cur).1, (nextTok p_cur).2⟩

/-- `at_tok_nextint_base`. The output is set before it is known whether there was a number. -/
def atTokNextintBase (p_cur : Cursor) (p_out : Int32) (base : ℕ) (uns : Bool) : TokReturn Int32 :=
  if p_cur.isNone then ⟨-1, p_out, p_cur⟩
  else
    match nextTok p_cur with
    | (none, p_cur) => ⟨-1, p_out, p_cur⟩
    | (some ret, p_cur) =>
        let l := if uns then (strtoul 64 base ret : ℤ) else strtol 64 base ret
        if scan base ret = none then ⟨-1, Int32.ofInt l, p_cur⟩ else ⟨0, Int32.ofInt l, p_cur⟩

/-- `at_tok_nextint` -/
def atTokNextint (p_cur : Cursor) (p_out : Int32) : TokReturn Int32 :=
  atTokNextintBase p_cur p_out 10 false

/-- `at_tok_nexthexint` -/
def atTokNexthexint (p_cur : Cursor) (p_out : Int32) : TokReturn Int32 :=
  atTokNextintBase p_cur p_out 16 true

end Tokens

section Fields

/-- A field of a response. -/
inductive Field where
  | unquoted (text : List Char)
  | quoted (text : List Char)
  deriving DecidableEq

def Field.text : Field → List Char
  | .unquoted text => text
  | .quoted text => text

/-- What is written for a field. -/
def Field.written : Field → List Char
  | .unquoted text => text
  | .quoted text => '"' :: (text ++ ['"'])

/-- The text can be told from what delimits it. -/
def Field.IsField : Field → Prop
  | .unquoted text => ∀ c ∈ text, c ≠ ',' ∧ c ≠ '"'
  | .quoted text => ∀ c ∈ text, c ≠ '"'

/-- No white space is at the start of a field without quotation marks. -/
def Field.Trimmed : Field → Prop
  | .unquoted text => ∀ c ∈ text.head?, isSpace c = false
  | .quoted _ => True

instance (f : Field) : Decidable f.IsField :=
  match f with
  | .unquoted text => List.decidableBAll (fun c => c ≠ ',' ∧ c ≠ '"') text
  | .quoted text => List.decidableBAll (fun c => c ≠ '"') text

/-- The fields, joined with commas. -/
def joined (fields : List Field) : List Char := [','].intercalate (fields.map Field.written)

/-- A response with a name in front of its fields. -/
def response (name : List Char) (fields : List Field) : List Char := name ++ ':' :: joined fields

/-- So many calls of `at_tok_nextstr`. -/
def tokenise : ℕ → Cursor → List (Option (List Char)) × Cursor
  | 0, p_cur => ([], p_cur)
  | k + 1, p_cur =>
      let token := atTokNextstr p_cur none
      (token.p_out :: (tokenise k token.p_cur).1, (tokenise k token.p_cur).2)

/-- The cursor when these fields are left. The last field that was taken decides what is behind
it. -/
def left (last : Option Field) (fields : List Field) : Cursor :=
  match last, fields with
  | some (.unquoted _), [] => none
  | _, fields => some (joined fields)

end Fields

section Calls

theorem strsep_append {delimiter : Char} {text : List Char} (h : ∀ c ∈ text, c ≠ delimiter)
    (rest : List Char) : strsep delimiter (text ++ delimiter :: rest) = (text, some rest) := by
  have hall : ∀ c ∈ text, decide (c ≠ delimiter) = true := fun c hc => decide_eq_true (h c hc)
  rw [strsep, List.takeWhile_append_of_pos hall, List.dropWhile_append_of_pos hall]
  simp

theorem strsep_self {delimiter : Char} {text : List Char} (h : ∀ c ∈ text, c ≠ delimiter) :
    strsep delimiter text = (text, none) := by
  have hall : ∀ c ∈ text, decide (c ≠ delimiter) = true := fun c hc => decide_eq_true (h c hc)
  rw [strsep, List.takeWhile_eq_self_iff.mpr hall, List.dropWhile_eq_nil_iff.mpr hall]

theorem joined_cons (f g : Field) (fields : List Field) :
    joined (f :: g :: fields) = f.written ++ ',' :: joined (g :: fields) := by
  simp [joined, List.intercalate]

theorem joined_singleton (f : Field) : joined [f] = f.written := by
  simp [joined, List.intercalate]

/-- A text with neither white space nor a quotation mark at its start. -/
theorem nextTok_plain {text : List Char} (hspace : ∀ c ∈ text.head?, isSpace c = false)
    (hquote : ∀ c ∈ text.head?, c ≠ '"') :
    nextTok (some text) = (some (strsep ',' text).1, (strsep ',' text).2) := by
  cases text with
  | nil => rfl
  | cons c text =>
      have hskip : skipWhiteSpace (some (c :: text)) = some (c :: text) := by
        rw [skipWhiteSpace, Option.map_some, List.dropWhile_cons, hspace c rfl,
          if_neg Bool.false_ne_true]
      rw [nextTok, hskip]
      split
      · contradiction
      · rename_i text' heq
        exact absurd (List.cons.inj (Option.some.inj heq)).1 (hquote c rfl)
      · rename_i text' _ heq
        rw [Option.some.inj heq]

theorem nextTok_quotation (text : List Char) :
    nextTok (some ('"' :: text)) =
      (some (strsep '"' text).1, skipNextComma (strsep '"' text).2) := rfl

/-- A call takes the first field that is left. -/
theorem nextTok_joined {f : Field} (hfield : f.IsField) (htrimmed : f.Trimmed)
    (fields : List Field) :
    nextTok (some (joined (f :: fields))) = (some f.text, left (some f) fields) := by
  cases f with
  | unquoted text =>
      have hcomma : ∀ c ∈ text, c ≠ ',' := fun c hc => (hfield c hc).1
      have hquote : ∀ c ∈ text.head?, c ≠ '"' := fun c hc => (hfield c (List.mem_of_head? hc)).2
      cases fields with
      | nil =>
          rw [joined_singleton, Field.written, nextTok_plain htrimmed hquote, strsep_self hcomma]
          rfl
      | cons g fields =>
          have hhead : ∀ c ∈ (text ++ ',' :: joined (g :: fields)).head?,
              isSpace c = false ∧ c ≠ '"' := by
            cases text with
            | nil =>
                rintro _ ⟨⟩
                decide
            | cons c text =>
                rintro _ ⟨⟩
                exact ⟨htrimmed c rfl, hquote c rfl⟩
          rw [joined_cons, Field.written, nextTok_plain (fun c hc => (hhead c hc).1)
            fun c hc => (hhead c hc).2, strsep_append hcomma]
          rfl
  | quoted text =>
      cases fields with
      | nil =>
          rw [joined_singleton, Field.written, nextTok_quotation, strsep_append hfield]
          rfl
      | cons g fields =>
          rw [joined_cons, Field.written, List.cons_append, List.append_assoc, nextTok_quotation,
            List.singleton_append, strsep_append hfield]
          rfl

theorem atTokNextstr_some (text : List Char) (p_out : Option (List Char)) :
    atTokNextstr (some text) p_out = ⟨0, (nextTok (some text)).1, (nextTok (some text)).2⟩ := rfl

/-- With a field left, it does not matter which one was taken last. -/
theorem left_cons (last : Option Field) (f : Field) (fields : List Field) :
    left last (f :: fields) = some (joined (f :: fields)) := by
  cases last with
  | none => rfl
  | some g => cases g <;> rfl

/-- The calls take the fields one after the other. -/
theorem tokenise_joined {fields : List Field} (hfields : ∀ f ∈ fields, f.IsField ∧ f.Trimmed)
    {k : ℕ} (hk : k ≤ fields.length) :
    tokenise k (some (joined fields)) =
      ((fields.take k).map fun f => some f.text,
        left (fields.take k).getLast? (fields.drop k)) := by
  induction k generalizing fields with
  | zero => rfl
  | succ k ih =>
      cases fields with
      | nil => exact absurd hk (Nat.not_succ_le_zero k)
      | cons f fields =>
          obtain ⟨⟨hfield, htrimmed⟩, hfields⟩ := List.forall_mem_cons.mp hfields
          have hk : k ≤ fields.length := Nat.le_of_succ_le_succ hk
          simp only [tokenise, atTokNextstr_some, nextTok_joined hfield htrimmed,
            List.take_succ_cons, List.drop_succ_cons, List.map_cons]
          cases k with
          | zero => rfl
          | succ k =>
              cases fields with
              | nil => exact absurd hk (Nat.not_succ_le_zero k)
              | cons g fields =>
                  rw [left_cons, ih hfields hk, List.take_succ_cons, List.getLast?_cons_cons]

/-- Something is left to be read of fields other than a single empty one. -/
theorem joined_ne_nil {fields : List Field} (hne : fields ≠ [])
    (hlast : fields.getLast? ≠ some (.unquoted [])) : joined fields ≠ [] := by
  cases fields with
  | nil => exact absurd rfl hne
  | cons f fields =>
      cases fields with
      | nil =>
          rw [joined_singleton]
          cases f with
          | unquoted text =>
              rintro rfl
              exact hlast rfl
          | quoted text => exact List.cons_ne_nil _ _
      | cons g fields =>
          rw [joined_cons]
          exact List.append_ne_nil_of_right_ne_nil _ (List.cons_ne_nil _ _)

/-- There is more while a field is left, other than an empty one at the end. -/
theorem atTokHasmore_left (last : Option Field) {fields : List Field}
    (hne : fields.getLast? ≠ some (.unquoted [])) :
    atTokHasmore (left last fields) = true ↔ fields ≠ [] := by
  cases fields with
  | nil =>
      refine iff_of_false ?_ fun h => h rfl
      cases last with
      | none => exact Bool.false_ne_true
      | some f => cases f <;> exact Bool.false_ne_true
  | cons f fields =>
      rw [left_cons]
      exact iff_of_true (decide_eq_true (joined_ne_nil (List.cons_ne_nil _ _) hne))
        (List.cons_ne_nil _ _)

theorem atTokStart_response {name : List Char} (hname : ':' ∉ name) (fields : List Field) :
    atTokStart (some (response name fields)) = (0, some (joined fields)) := by
  have hcolon : ∀ c ∈ name, c ≠ ':' := fun c hc heq => hname (heq ▸ hc)
  rw [atTokStart, Option.bind_some, response, strsep_append hcolon]

/-- The integer of a token without a number is an error, and the output is zero. -/
theorem atTokNextintBase_of_no_number {p_cur : Cursor} {ret : List Char} {base : ℕ}
    (htoken : (nextTok p_cur).1 = some ret) (hnone : scan base ret = none) (p_out : Int32)
    (uns : Bool) :
    atTokNextintBase p_cur p_out base uns = ⟨-1, 0, (nextTok p_cur).2⟩ := by
  cases p_cur with
  | none => exact absurd htoken.symm (Option.some_ne_none ret)
  | some text =>
      have hpair : nextTok (some text) = (some ret, (nextTok (some text)).2) :=
        Prod.ext htoken rfl
      have hvalue : (if uns then (strtoul 64 base ret : ℤ) else strtol 64 base ret) = 0 := by
        rw [strtoul, strtol, hnone]
        exact ite_self 0
      rw [atTokNextintBase, Option.isNone_some, if_neg Bool.false_ne_true, hpair]
      simp only [hvalue, if_pos hnone]
      rfl

/-- A field in quotation marks, an empty one and one without quotation marks. -/
def mixedFields : List Field := [.quoted ['a', ',', 'b'], .unquoted [], .unquoted ['7']]

end Calls

end AtTok

end Ril

end SierraSdk
