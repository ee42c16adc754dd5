import SierraSdk.Library.MemoryText
import SierraSdk.Library.Pieces
import Mathlib.Data.List.TakeWhile
import Mathlib.Data.UInt

/-!
# slstrtok

`slstrtok` returns the next token of a text. It skips the delimiters in front of it, puts a zero
over the delimiter behind it, and saves where it has to go on. A caller takes the tokens in a loop
until `slstrtok` returns `NULL` (`strtokLoop`), and may name other delimiters in every call.

What the loop has been given are the pieces that lie between the delimiters, and all of them can
still be read when it has ended.
-/

namespace SierraSdk

namespace Sl

open Memory MemoryText Pieces

/-- The number of characters at the beginning of the string that match any character in `str2p`, or
that match none of them. The string ends within so many characters. -/
def slstrspn (d : ℕ → UInt8) (str2p : List UInt8) (any_match : Bool) : ℕ → ℕ → ℕ
  | 0, _ => 0
  | n + 1, str1p =>
      if d str1p = 0 then 0
      else
        let equal := str2p.contains (d str1p)
        if (any_match && !equal) || (!any_match && equal) then 0
        else slstrspn d str2p any_match n (str1p + 1) + 1

/-- The length of a string that ends within so many characters. -/
def slstrlen (d : ℕ → UInt8) : ℕ → ℕ → ℕ
  | 0, _ => 0
  | n + 1, sp => if d sp = 0 then 0 else slstrlen d n (sp + 1) + 1

/-- What a call leaves and returns: the memory, the pointer in the control block and the token. -/
structure StrtokReturn where
  d : ℕ → UInt8
  slstrtokevalp : ℕ
  resultp : Option ℕ

/-- The end of a token: a zero is written to where the delimiter is. -/
def endToken (d : ℕ → UInt8) (resultp tokevalp : ℕ) : StrtokReturn :=
  if d tokevalp ≠ 0 then ⟨store d tokevalp [0], tokevalp + 1, some resultp⟩
  else ⟨d, tokevalp, some resultp⟩

def slstrtok (n : ℕ) (d : ℕ → UInt8) (tokp : Option ℕ) (sldelimitp : List UInt8)
    (slstrtokevalp : ℕ) : StrtokReturn :=
  let tokevalp := tokp.getD slstrtokevalp
  let resultp := tokevalp + slstrspn d sldelimitp true n tokevalp
  if d resultp = 0 then ⟨d, slstrtokevalp, none⟩
  else endToken d resultp (resultp + slstrspn d sldelimitp false n resultp)

/-- The loop of a caller: the first call is given the text, the others go on with it, until `NULL` is
returned or the caller has enough. The memory after it, and the tokens. -/
def strtokLoop (n : ℕ) : (ℕ → UInt8) → Option ℕ → ℕ → List (List UInt8) → (ℕ → UInt8) × List ℕ
  | d, _, _, [] => (d, [])
  | d, tokp, slstrtokevalp, sldelimitp :: sldelimitps =>
      let call := slstrtok n d tokp sldelimitp slstrtokevalp
      match call.resultp with
      | none => (call.d, [])
      | some resultp =>
          let rest := strtokLoop n call.d none call.slstrtokevalp sldelimitps
          (rest.1, resultp :: rest.2)

variable {n : ℕ} {d : ℕ → UInt8} {i : ℕ} {xs : List UInt8}

/-- Where `slstrspn` stops. -/
def spanStop (str2p : List UInt8) (any_match : Bool) (c : UInt8) : Bool :=
  c = 0 || (any_match && !str2p.contains c) || (!any_match && str2p.contains c)

theorem add_slstrspn (d : ℕ → UInt8) (str2p : List UInt8) (any_match : Bool) (n i : ℕ) :
    i + slstrspn d str2p any_match n i = seek (spanStop str2p any_match) d n i := by
  induction n generalizing i with
  | zero => rfl
  | succ n ih =>
      unfold slstrspn seek spanStop
      by_cases hzero : d i = 0
      · simp [hzero]
      · rw [if_neg hzero]
        by_cases hstop : ((any_match && !str2p.contains (d i)) ||
            (!any_match && str2p.contains (d i))) = true
        · rw [if_pos hstop, if_pos (by simpa [hzero] using hstop), Nat.add_zero]
        · rw [if_neg hstop, if_neg (by simpa [hzero] using hstop), ← Nat.add_assoc,
            Nat.add_right_comm, ih]
          rfl

theorem takeWhile_congr {p q : UInt8 → Bool} (h : ∀ c ∈ xs, p c = q c) :
    xs.takeWhile p = xs.takeWhile q := by
  induction xs with
  | nil => rfl
  | cons c xs ih =>
      obtain ⟨hc, hxs⟩ := List.forall_mem_cons.mp h
      rw [List.takeWhile_cons, List.takeWhile_cons, hc, ih hxs]

/-- The characters of a text that `slstrspn` counts. -/
theorem slstrspn_text (h : Text d i xs) (hn : xs.length < n) (str2p : List UInt8)
    (any_match : Bool) :
    slstrspn d str2p any_match n i =
      (xs.takeWhile fun c => str2p.contains c == any_match).length := by
  have hstop : ∀ c ∈ xs, (!spanStop str2p any_match c) = (str2p.contains c == any_match) := by
    intro c hc
    have hne : c ≠ 0 := h.ne_zero c hc
    unfold spanStop
    cases any_match <;> cases str2p.contains c <;> simp [hne]
  have hseek := seek_eq (rfl : spanStop str2p any_match 0 = true) h hn
  rw [← add_slstrspn, takeWhile_congr hstop] at hseek
  exact Nat.add_left_cancel hseek

theorem slstrspn_match (h : Text d i xs) (hn : xs.length < n) (str2p : List UInt8) :
    slstrspn d str2p true n i = (xs.takeWhile str2p.contains).length := by
  rw [slstrspn_text h hn, takeWhile_congr (q := str2p.contains) fun c _ => by simp]

theorem slstrspn_no_match (h : Text d i xs) (hn : xs.length < n) (str2p : List UInt8) :
    slstrspn d str2p false n i = (xs.takeWhile fun c => !str2p.contains c).length := by
  rw [slstrspn_text h hn,
    takeWhile_congr (q := fun c => !str2p.contains c) fun c _ => by simp]

theorem slstrlen_text (h : Text d i xs) (hn : xs.length < n) : slstrlen d n i = xs.length := by
  induction xs generalizing i n with
  | nil =>
      obtain ⟨m, rfl⟩ := Nat.exists_eq_add_one_of_ne_zero (Nat.ne_zero_of_lt hn)
      rw [slstrlen, if_pos (text_nil_iff.mp h), List.length_nil]
  | cons x xs ih =>
      obtain ⟨m, rfl⟩ := Nat.exists_eq_add_one_of_ne_zero (Nat.ne_zero_of_lt hn)
      obtain ⟨hx, hne, hxs⟩ := text_cons_iff.mp h
      rw [slstrlen, hx, if_neg hne, ih hxs (Nat.lt_of_succ_lt_succ hn), List.length_cons]

/-- What is behind the first characters of a text. -/
theorem text_dropWhile (h : Text d i xs) (p : UInt8 → Bool) :
    Text d (i + (xs.takeWhile p).length) (xs.dropWhile p) :=
  Text.drop ((List.takeWhile_append_dropWhile (p := p) (l := xs)).symm ▸ h)

theorem length_takeWhile_add (p : UInt8 → Bool) (xs : List UInt8) :
    (xs.takeWhile p).length + (xs.dropWhile p).length = xs.length := by
  rw [← List.length_append, List.takeWhile_append_dropWhile]

section Call

variable (tokp : Option ℕ) (sldelimitp : List UInt8) (slstrtokevalp : ℕ)

/-- The rest of a text, from its first token on. -/
def fromToken (sldelimitp xs : List UInt8) : List UInt8 := xs.dropWhile sldelimitp.contains

/-- Where the first token of a text begins. -/
def tokenStart (i : ℕ) (sldelimitp xs : List UInt8) : ℕ :=
  i + (xs.takeWhile sldelimitp.contains).length

/-- The first token of a text. -/
def firstToken (sldelimitp xs : List UInt8) : List UInt8 :=
  (fromToken sldelimitp xs).takeWhile fun c => !sldelimitp.contains c

/-- What is behind the first token of a text, from the delimiter on. -/
def behindToken (sldelimitp xs : List UInt8) : List UInt8 :=
  (fromToken sldelimitp xs).dropWhile fun c => !sldelimitp.contains c

/-- What a call does to a text that has a token. -/
structure TakesToken (d : ℕ → UInt8) (i : ℕ) (xs : List UInt8) (sldelimitp : List UInt8)
    (call : StrtokReturn) : Prop where
  resultp : call.resultp = some (tokenStart i sldelimitp xs)
  token : Text call.d (tokenStart i sldelimitp xs) (firstToken sldelimitp xs)
  rest : Text call.d call.slstrtokevalp (behindToken sldelimitp xs).tail
  ends : call.slstrtokevalp + (behindToken sldelimitp xs).tail.length = i + xs.length
  written : ∀ k, call.d k ≠ d k → call.d k = 0 ∧ d k ∈ sldelimitp ∧
    k = tokenStart i sldelimitp xs + (firstToken sldelimitp xs).length
  saved : call.slstrtokevalp =
      tokenStart i sldelimitp xs + (firstToken sldelimitp xs).length + 1 ∨
    call.d = d ∧ call.slstrtokevalp =
      tokenStart i sldelimitp xs + (firstToken sldelimitp xs).length

theorem tokenStart_text (h : Text d i xs) :
    Text d (tokenStart i sldelimitp xs) (fromToken sldelimitp xs) :=
  text_dropWhile h _

theorem tokenStart_add (i : ℕ) (sldelimitp xs : List UInt8) :
    tokenStart i sldelimitp xs + (fromToken sldelimitp xs).length = i + xs.length := by
  rw [tokenStart, fromToken, Nat.add_assoc, length_takeWhile_add]

theorem length_fromToken_le (sldelimitp xs : List UInt8) :
    (fromToken sldelimitp xs).length ≤ xs.length :=
  (List.dropWhile_sublist _).length_le

theorem firstToken_append (sldelimitp xs : List UInt8) :
    firstToken sldelimitp xs ++ behindToken sldelimitp xs = fromToken sldelimitp xs :=
  List.takeWhile_append_dropWhile

/-- Behind a token there is a delimiter, or nothing. -/
theorem mem_of_behindToken {sldelimitp tl : List UInt8} {c : UInt8}
    (h : behindToken sldelimitp xs = c :: tl) : c ∈ sldelimitp := by
  have hhead := List.head?_dropWhile_not (fun c => !sldelimitp.contains c)
    (fromToken sldelimitp xs)
  rw [behindToken] at h
  rw [h] at hhead
  simpa using hhead

theorem firstToken_ne_nil {sldelimitp : List UInt8} (h : fromToken sldelimitp xs ≠ []) :
    firstToken sldelimitp xs ≠ [] := by
  obtain ⟨c, rest, hc⟩ := List.exists_cons_of_ne_nil h
  have hhead := List.head?_dropWhile_not sldelimitp.contains xs
  rw [fromToken] at hc
  rw [hc] at hhead
  rw [firstToken, fromToken, hc, List.takeWhile_cons_of_pos (by simpa using hhead)]
  exact List.cons_ne_nil _ _

variable {sldelimitp slstrtokevalp} in
/-- There is no token. -/
theorem slstrtok_none (h : Text d (tokp.getD slstrtokevalp) xs) (hn : xs.length < n)
    (hrest : fromToken sldelimitp xs = []) :
    slstrtok n d tokp sldelimitp slstrtokevalp = ⟨d, slstrtokevalp, none⟩ := by
  have htext := tokenStart_text sldelimitp h
  rw [hrest] at htext
  rw [slstrtok, slstrspn_match h hn]
  exact if_pos (text_nil_iff.mp htext)

variable {sldelimitp slstrtokevalp} in
/-- There is a token. -/
theorem slstrtok_some (h : Text d (tokp.getD slstrtokevalp) xs) (hn : xs.length < n)
    (hrest : fromToken sldelimitp xs ≠ []) :
    TakesToken d (tokp.getD slstrtokevalp) xs sldelimitp
      (slstrtok n d tokp sldelimitp slstrtokevalp) := by
  have hfrom := tokenStart_text sldelimitp h
  have hspan := slstrspn_no_match hfrom ((length_fromToken_le sldelimitp xs).trans_lt hn) sldelimitp
  have hends := tokenStart_add (tokp.getD slstrtokevalp) sldelimitp xs
  have hsplit := firstToken_append sldelimitp xs
  have hstart : d (tokenStart (tokp.getD slstrtokevalp) sldelimitp xs) ≠ 0 := by
    obtain ⟨c, rest, hc⟩ := List.exists_cons_of_ne_nil hrest
    rw [hc] at hfrom
    obtain ⟨hd, hne, -⟩ := text_cons_iff.mp hfrom
    rwa [hd]
  have hcall : slstrtok n d tokp sldelimitp slstrtokevalp =
      endToken d (tokenStart (tokp.getD slstrtokevalp) sldelimitp xs)
        (tokenStart (tokp.getD slstrtokevalp) sldelimitp xs + (firstToken sldelimitp xs).length) := by
    rw [slstrtok, slstrspn_match h hn]
    exact (if_neg hstart).trans (by rw [firstToken, ← hspan]; rfl)
  rw [hcall]
  rw [← hsplit] at hfrom hends
  cases hbehind : behindToken sldelimitp xs with
  | nil =>
      rw [hbehind, List.append_nil] at hfrom hends
      rw [endToken, if_neg (not_not.mpr hfrom.end_eq)]
      exact ⟨rfl, hfrom, by rw [hbehind]; exact text_nil_iff.mpr hfrom.end_eq,
        by rw [hbehind]; exact hends, fun k hk => absurd rfl hk, .inr ⟨rfl, rfl⟩⟩
  | cons c tl =>
      rw [hbehind] at hfrom hends
      obtain ⟨hd, hne, htl⟩ := text_cons_iff.mp (Text.drop hfrom)
      rw [endToken, if_pos (by rwa [hd])]
      refine ⟨rfl, hfrom.cut, ?_, ?_, ?_, .inl rfl⟩
      · rw [hbehind]
        exact htl.store_of_lt (Nat.lt_succ_self _) 0
      · rw [hbehind]
        rw [List.length_append, List.length_cons] at hends
        change _ + 1 + tl.length = _
        omega
      · intro k hk
        have heq : k = tokenStart (tokp.getD slstrtokevalp) sldelimitp xs +
            (firstToken sldelimitp xs).length := by
          by_contra hne
          exact hk (store_singleton_of_ne hne)
        refine ⟨heq ▸ store_at _ _ _, ?_, heq⟩
        rw [heq, hd]
        exact mem_of_behindToken hbehind

theorem length_tokens (i : ℕ) (sldelimitp xs : List UInt8) :
    tokenStart i sldelimitp xs +
      ((firstToken sldelimitp xs).length + (behindToken sldelimitp xs).length) = i + xs.length := by
  rw [← List.length_append, firstToken_append, tokenStart_add]

theorem le_tokenStart (i : ℕ) (sldelimitp xs : List UInt8) : i ≤ tokenStart i sldelimitp xs :=
  Nat.le_add_right i _

/-- Where the next call goes on is behind the token, and behind its zero if there is more. -/
theorem TakesToken.saved_bounds {call : StrtokReturn} (h : TakesToken d i xs sldelimitp call) :
    tokenStart i sldelimitp xs + (firstToken sldelimitp xs).length ≤ call.slstrtokevalp ∧
      ((behindToken sldelimitp xs).tail ≠ [] →
        tokenStart i sldelimitp xs + (firstToken sldelimitp xs).length < call.slstrtokevalp) := by
  have hends := h.ends
  have hlen := length_tokens i sldelimitp xs
  rw [List.length_tail] at hends
  rw [← List.length_pos_iff, List.length_tail]
  rcases h.saved with hsaved | ⟨-, hsaved⟩ <;> omega

/-- Nothing is written where the text goes on. -/
theorem TakesToken.frame {call : StrtokReturn} (h : TakesToken d i xs sldelimitp call) {k : ℕ}
    (hk : call.slstrtokevalp ≤ k) : call.d k = d k := by
  by_contra hne
  obtain ⟨-, -, heq⟩ := h.written k hne
  rcases h.saved with hsaved | ⟨hd, -⟩
  · omega
  · exact hne (congrFun hd k)

/-- With a second zero behind the text, what is behind the first token and its delimiter can be read
as a text of its own, even if the text ends with the token. It ends where the text did, if there is
anything of it. -/
theorem TakesToken.behind {call : StrtokReturn} (h : TakesToken d i xs sldelimitp call)
    (hzero : d (i + xs.length + 1) = 0) :
    Text call.d (tokenStart i sldelimitp xs + (firstToken sldelimitp xs).length + 1)
        (behindToken sldelimitp xs).tail ∧
      ((behindToken sldelimitp xs).tail ≠ [] →
        call.d (tokenStart i sldelimitp xs + (firstToken sldelimitp xs).length + 1 +
          (behindToken sldelimitp xs).tail.length + 1) = 0) := by
  have hends := h.ends
  have hlen := length_tokens i sldelimitp xs
  rcases h.saved with hsaved | ⟨hd, hsaved⟩
  · rw [← hsaved, hends]
    refine ⟨h.rest, fun _ => ?_⟩
    rw [h.frame sldelimitp (by omega), hzero]
  · have htail : (behindToken sldelimitp xs).tail = [] := by
      rw [← List.length_eq_zero_iff]
      rw [List.length_tail] at hends ⊢
      omega
    rw [htail] at hends ⊢
    rw [← hsaved, hd]
    exact ⟨text_nil_iff.mpr (by rw [← hzero, ← hends]; rfl), fun hne => absurd rfl hne⟩

end Call

section Loop

/-- What a loop is to have done to a text: it was given its pieces, one behind the other, and has
put zeros over delimiters and nothing else. -/
structure Tokenized (d : ℕ → UInt8) (i : ℕ) (xs : List UInt8) (sldelimitps : List (List UInt8))
    (out : (ℕ → UInt8) × List ℕ) : Prop where
  tokens : List.Forall₂ (Text out.1) out.2
    (cuts (sldelimitps.map fun sldelimitp => sldelimitp.contains) xs)
  ordered : out.2.Pairwise (· < ·)
  start : ∀ resultp ∈ out.2, i ≤ resultp
  written : ∀ k, out.1 k ≠ d k →
    out.1 k = 0 ∧ (∃ sldelimitp ∈ sldelimitps, d k ∈ sldelimitp) ∧ i ≤ k ∧ k < i + xs.length

theorem tokenized_nil (d : ℕ → UInt8) (i : ℕ) (xs : List UInt8) :
    Tokenized d i xs [] (d, []) :=
  ⟨.nil, .nil, fun _ h => absurd h List.not_mem_nil, fun _ h => absurd rfl h⟩

theorem tokenized_none (d : ℕ → UInt8) (i : ℕ) {sldelimitp : List UInt8}
    (sldelimitps : List (List UInt8)) (h : fromToken sldelimitp xs = []) :
    Tokenized d i xs (sldelimitp :: sldelimitps) (d, []) := by
  refine ⟨?_, .nil, fun _ h => absurd h List.not_mem_nil, fun _ h => absurd rfl h⟩
  rw [List.map_cons, cuts_cons_of_eq_nil _ h]
  exact .nil

/-- A call that takes a token, and then the others with what is behind it. -/
theorem TakesToken.tokenized {call : StrtokReturn} {sldelimitp : List UInt8}
    {sldelimitps : List (List UInt8)} {out : (ℕ → UInt8) × List ℕ}
    (h : TakesToken d i xs sldelimitp call) (hrest : fromToken sldelimitp xs ≠ [])
    (hloop : Tokenized call.d call.slstrtokevalp (behindToken sldelimitp xs).tail sldelimitps out) :
    Tokenized d i xs (sldelimitp :: sldelimitps)
      (out.1, tokenStart i sldelimitp xs :: out.2) := by
  have hends := h.ends
  have hstart := le_tokenStart i sldelimitp xs
  have hlength := List.length_pos_iff.mpr (firstToken_ne_nil hrest)
  obtain ⟨hsaved, hmore⟩ := h.saved_bounds
  have hkept : ∀ k ≤ tokenStart i sldelimitp xs + (firstToken sldelimitp xs).length,
      out.1 k = call.d k := by
    intro k hk
    by_contra hne
    obtain ⟨-, -, hle, hlt⟩ := hloop.written k hne
    have htail : (behindToken sldelimitp xs).tail ≠ [] :=
      List.length_pos_iff.mp (by omega)
    exact absurd (hmore htail) (by omega)
  refine ⟨?_, ?_, ?_, ?_⟩
  · rw [List.map_cons, cuts_cons_of_ne_nil _ hrest]
    exact .cons (h.token.congr fun j _ hj => hkept j hj) hloop.tokens
  · refine List.pairwise_cons.mpr ⟨fun resultp hresultp => ?_, hloop.ordered⟩
    have hle := hloop.start resultp hresultp
    omega
  · intro resultp hresultp
    rcases List.mem_cons.mp hresultp with rfl | hresultp
    · exact hstart
    · have hle := hloop.start resultp hresultp
      omega
  · intro k hk
    by_cases hcall : out.1 k = call.d k
    · rw [hcall] at hk ⊢
      obtain ⟨hzero, hmem, heq⟩ := h.written k hk
      refine ⟨hzero, ⟨sldelimitp, List.mem_cons_self, hmem⟩, by omega, ?_⟩
      rcases h.saved with hsaved | ⟨hd, -⟩
      · omega
      · exact absurd (congrFun hd k) hk
    · obtain ⟨hzero, ⟨sldelimitp', hmem', hmem⟩, hle, hlt⟩ := hloop.written k hcall
      rw [h.frame sldelimitp hle] at hmem
      exact ⟨hzero, ⟨sldelimitp', List.mem_cons_of_mem _ hmem', hmem⟩, by omega, by omega⟩

theorem strtokLoop_tokenized (tokp : Option ℕ) (slstrtokevalp : ℕ)
    (h : Text d (tokp.getD slstrtokevalp) xs) (hn : xs.length < n)
    (sldelimitps : List (List UInt8)) :
    Tokenized d (tokp.getD slstrtokevalp) xs sldelimitps
      (strtokLoop n d tokp slstrtokevalp sldelimitps) := by
  induction sldelimitps generalizing d tokp slstrtokevalp xs with
  | nil => exact tokenized_nil d _ xs
  | cons sldelimitp sldelimitps ih =>
      by_cases hrest : fromToken sldelimitp xs = []
      · rw [strtokLoop, slstrtok_none tokp h hn hrest]
        exact tokenized_none d _ sldelimitps hrest
      · have hcall := slstrtok_some tokp h hn hrest
        have hends := hcall.ends
        have hstart := le_tokenStart (tokp.getD slstrtokevalp) sldelimitp xs
        have hsaved := hcall.saved_bounds.1
        rw [strtokLoop, hcall.resultp]
        exact hcall.tokenized hrest (ih none _ hcall.rest (by omega))

/-- A loop that takes the tokens of a text is given its pieces, in order, whichever delimiters it
names in each call; if it always names the same, these are the pieces between them, as many as it
asks for. The pieces can all be read when it has ended, and nothing is written but zeros over
delimiters. -/
theorem strtokLoop_pieces (h : Text d i xs) (hn : xs.length < n) (slstrtokevalp : ℕ)
    (sldelimitps : List (List UInt8)) :
    Tokenized d i xs sldelimitps (strtokLoop n d (some i) slstrtokevalp sldelimitps) ∧
      ∀ sldelimitp k, sldelimitps = List.replicate k sldelimitp →
        List.Forall₂ (Text (strtokLoop n d (some i) slstrtokevalp sldelimitps).1)
          (strtokLoop n d (some i) slstrtokevalp sldelimitps).2
          ((pieces sldelimitp.contains xs).take k) := by
  have hloop := strtokLoop_tokenized (some i) slstrtokevalp h hn sldelimitps
  refine ⟨hloop, fun sldelimitp k hk => ?_⟩
  have htokens := hloop.tokens
  rw [hk, List.map_replicate, cuts_replicate] at htokens
  rwa [hk]

/-- A text of two words, with more than one blank between them. -/
def twoWords : List UInt8 := [97, 98, 32, 32, 99]

theorem text_twoWords : Text (ofList 0 twoWords) 0 twoWords :=
  ⟨rfl, rfl, by simp [twoWords]⟩

theorem strtokLoop_pieces_twoWords :
    Text (ofList 0 twoWords) 0 twoWords ∧ twoWords.length < 8 ∧
      List.Forall₂ (Text (strtokLoop 8 (ofList 0 twoWords) (some 0) 0 [[32], [32], [32]]).1)
        (strtokLoop 8 (ofList 0 twoWords) (some 0) 0 [[32], [32], [32]]).2 [[97, 98], [99]] :=
  ⟨text_twoWords, by decide,
    (strtokLoop_pieces (n := 8) text_twoWords (by decide) 0 [[32], [32], [32]]).2 [32] 3 rfl⟩

end Loop

end Sl

end SierraSdk
