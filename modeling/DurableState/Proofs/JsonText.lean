import DurableState.Json.Reader
import DurableState.Proofs.Lists
import DurableState.Proofs.Numerals

/-!
# DurableState.Proofs.JsonText — a printed value is read as its own tree

The compact text of a value is read as the tree that has the same shape, with every number as the
numeral that it is printed as (`ofText?_compact`). The proof follows the two passes of the reader:

* the scanner finds the tokens of the value (`foldlM_chars`), the last of which may still be open at
  its end, as a numeral or a word only ends with the next character;
* from these the reader builds the tree (`foldlM_tokens`), whatever arrays and objects are open
  around it.
-/

namespace DurableState

namespace Json

/-! ## Values and their trees -/

mutual

/-- The tree of the text of a value. -/
def tree : Json → Tree
  | .null => .null
  | .bool b => .bool b
  | .num n => .num (.ofNumber n)
  | .str s => .str (some s)
  | .arr items => .arr (treeItems items)
  | .obj fields => .obj (treeFields fields)

def treeItems : List Json → List Tree
  | [] => []
  | j :: rest => tree j :: treeItems rest

def treeFields : List (String × Json) → List (Option String × Tree)
  | [] => []
  | (k, j) :: rest => (some k, tree j) :: treeFields rest

end

mutual

/-- The tokens of the text of a value. -/
def tokens : Json → List Token
  | .null => [.null]
  | .bool b => [.bool b]
  | .num n => [.num (.ofNumber n)]
  | .str s => [.str (some s)]
  | .arr [] => [.openArr, .closeArr]
  | .arr (j :: rest) => .openArr :: (tokens j ++ (itemTokens rest ++ [.closeArr]))
  | .obj [] => [.openObj, .closeObj]
  | .obj ((k, j) :: rest) =>
    .openObj :: .str (some k) :: .colon :: (tokens j ++ (fieldTokens rest ++ [.closeObj]))

def itemTokens : List Json → List Token
  | [] => []
  | j :: rest => .comma :: (tokens j ++ itemTokens rest)

def fieldTokens : List (String × Json) → List Token
  | [] => []
  | (k, j) :: rest => .comma :: .str (some k) :: .colon :: (tokens j ++ fieldTokens rest)

end

/-! ## The scanner -/

/-- The piece that a character is read as: a control character without a letter of its own comes
back as a unit. -/
def Piece.ofChar (c : Char) : Piece :=
  if c.toNat < 32 ∧ c ∉ ['\x08', '\x0c', '\n', '\x0d', '\t'] then .unit c.toNat else .char c

/-- A control character is no half of a pair, so it stands for itself. -/
theorem joinPieces_cons_unit {u : Nat} (hu : u < 32) (rest : List Piece) :
    joinPieces (.unit u :: rest) = (joinPieces rest).map (Char.ofNat u :: ·) := by
  have hhigh : isHighSurrogate u = false := by
    unfold isHighSurrogate
    simp
    omega
  have hlow : isLowSurrogate u = false := by
    unfold isLowSurrogate
    simp
    omega
  cases rest with
  | nil => simp [joinPieces, hhigh, hlow]
  | cons p rest => cases p <;> simp [joinPieces, hhigh, hlow]

/-- The pieces of a text make it up again. -/
theorem joinPieces_map_ofChar (cs : List Char) : joinPieces (cs.map Piece.ofChar) = some cs := by
  induction cs with
  | nil => rfl
  | cons c cs ih =>
    rw [List.map_cons]
    -- A control character without a letter is written by its number, and any other as it is.
    by_cases hcontrol : c.toNat < 32 ∧ c ∉ ['\x08', '\x0c', '\n', '\x0d', '\t']
    · have hpiece : Piece.ofChar c = .unit c.toNat := if_pos hcontrol
      rw [hpiece, joinPieces_cons_unit hcontrol.1, ih, Option.map_some, Char.ofNat_toNat]
    · have hpiece : Piece.ofChar c = .char c := if_neg hcontrol
      rw [hpiece, joinPieces, ih, Option.map_some]

/-- A hexadecimal digit denotes the number that it was made from. -/
theorem hexValue?_hexChar : ∀ d < 16, Decimal.hexValue? (Decimal.hexChar d) = some d := by
  decide

namespace Scanner

/-- An escaped character is read as one piece. -/
theorem foldlM_escape (ts : List Token) (ps : List Piece) (c : Char) :
    (escape c).foldlM step ⟨ts, .string ps⟩ = some ⟨ts, .string (.ofChar c :: ps)⟩ := by
  unfold escape
  -- Seven characters have an escape of two characters, which is read as it stands.
  split
  · rename_i h
    subst h
    rfl
  split
  · rename_i h
    subst h
    rfl
  split
  · rename_i h
    subst h
    rfl
  split
  · rename_i h
    subst h
    rfl
  split
  · rename_i h
    subst h
    rfl
  split
  · rename_i h
    subst h
    rfl
  split
  · rename_i h
    subst h
    rfl
  rename_i hquote hback hb hf hn hr ht
  split
  · -- Four hexadecimal digits denote the number of the character.
    rename_i hcontrol
    have hpiece : Piece.ofChar c = .unit c.toNat := if_pos ⟨hcontrol, by simp [hb, hf, hn, hr, ht]⟩
    have hhigh := hexValue?_hexChar (c.toNat / 16) (by omega)
    have hlow := hexValue?_hexChar (c.toNat % 16) (by omega)
    have hstart : ['\\', 'u', '0', '0'].foldlM step ⟨ts, .string ps⟩ = some ⟨ts, .hex ps 2 0⟩ := rfl
    have hthird : step ⟨ts, .hex ps 2 0⟩ (Decimal.hexChar (c.toNat / 16)) =
        some ⟨ts, .hex ps 3 (c.toNat / 16)⟩ := by
      simp [step, hhigh]
    have hfourth : step ⟨ts, .hex ps 3 (c.toNat / 16)⟩ (Decimal.hexChar (c.toNat % 16)) =
        some ⟨ts, .string (.unit c.toNat :: ps)⟩ := by
      simp [step, hlow, Nat.div_add_mod]
    rw [hpiece]
    refine (foldlM_append_of_eq_some hstart _).trans ?_
    rw [foldlM_cons_of_eq_some hthird, foldlM_cons_of_eq_some hfourth]
    rfl
  · rename_i hplain
    have hpiece : Piece.ofChar c = .char c := if_neg fun h => hplain h.1
    have hstep : step ⟨ts, .string ps⟩ c = some ⟨ts, .string (.char c :: ps)⟩ := by
      simp [step, hquote, hback, hplain]
    rw [hpiece, foldlM_cons_of_eq_some hstep]
    rfl

/-- An escaped text is read piece by piece. -/
theorem foldlM_flatMap_escape (ts : List Token) (ps : List Piece) (cs : List Char) :
    (cs.flatMap escape).foldlM step ⟨ts, .string ps⟩ =
      some ⟨ts, .string ((cs.map Piece.ofChar).reverse ++ ps)⟩ := by
  induction cs generalizing ps with
  | nil => rfl
  | cons c cs ih =>
    rw [List.flatMap_cons, foldlM_append_of_eq_some (foldlM_escape ts ps c), ih]
    simp

/-- A quoted string is read as one token. -/
theorem foldlM_quote (ts : List Token) (s : String) :
    (quote s).foldlM step ⟨ts, .between⟩ = some ⟨.str (some s) :: ts, .between⟩ := by
  have hopen : step ⟨ts, .between⟩ '"' = some ⟨ts, .string []⟩ := rfl
  have hclose : step ⟨ts, .string (s.toList.map Piece.ofChar).reverse⟩ '"' =
      some ⟨.str (some s) :: ts, .between⟩ := by
    simp [step, joinPieces_map_ofChar]
  unfold quote
  rw [foldlM_cons_of_eq_some hopen, foldlM_append_of_eq_some (foldlM_flatMap_escape ts [] s.toList)]
  rw [List.append_nil, foldlM_cons_of_eq_some hclose]
  rfl

/-- The scanner has taken some tokens, the newest first; the newest may still be open at its end. -/
inductive Took : Scanner → List Token → Prop
  | between (ts : List Token) : Took ⟨ts, .between⟩ ts
  | word {ts : List Token} {letters : List Char} {t : Token}
      (h : wordToken? letters.reverse = some t) : Took ⟨ts, .word letters⟩ (t :: ts)
  | numeral {ts : List Token} {chars : List Char} {n : Numeral}
      (h : Numeral.ofChars? chars.reverse = some n) : Took ⟨ts, .numeral chars⟩ (.num n :: ts)

/-- At the end of the text a token that is open ends too. -/
theorem Took.finish {s : Scanner} {ts : List Token} (h : s.Took ts) :
    s.finish = some ts.reverse := by
  cases h with
  | between => rfl
  | word h => simp [Scanner.finish, h]
  | numeral h => simp [Scanner.finish, h]

/-- A character that continues neither a word nor a numeral ends the token. -/
theorem Took.step {s : Scanner} {ts : List Token} (h : s.Took ts) {c : Char}
    (hlower : c.isLower = false) (hnumeral : Numeral.isNumeralChar c = false) :
    s.step c = begin ts c := by
  cases h with
  | between => rfl
  | word h => simp [Scanner.step, hlower, h]
  | numeral h => simp [Scanner.step, hnumeral, h]

/-- A numeral goes on as long as its characters do. -/
theorem foldlM_numeral (ts : List Token) (seen : List Char) {cs : List Char}
    (hcs : ∀ c ∈ cs, Numeral.isNumeralChar c = true) :
    cs.foldlM step ⟨ts, .numeral seen⟩ = some ⟨ts, .numeral (cs.reverse ++ seen)⟩ := by
  induction cs generalizing seen with
  | nil => rfl
  | cons c cs ih =>
    obtain ⟨hc, hcs⟩ := List.forall_mem_cons.1 hcs
    have hstep : step ⟨ts, .numeral seen⟩ c = some ⟨ts, .numeral (c :: seen)⟩ := by
      simp [step, hc]
    rw [foldlM_cons_of_eq_some hstep, ih _ hcs]
    simp

theorem isNumeralChar_of_isDigit {c : Char} (h : c.isDigit = true) :
    Numeral.isNumeralChar c = true := by
  simp [Numeral.isNumeralChar, h]

/-- A digit begins a numeral. -/
theorem begin_of_isDigit (ts : List Token) {c : Char} (h : c.isDigit = true) :
    begin ts c = some ⟨ts, .numeral [c]⟩ := by
  have hblank : isBlank c = false := by
    unfold isBlank
    simp only [Bool.or_eq_false_iff, beq_eq_false_iff_ne, ne_eq]
    refine ⟨⟨⟨?_, ?_⟩, ?_⟩, ?_⟩ <;> rintro rfl <;> cases h
  have hquote : c ≠ '"' := by
    rintro rfl
    cases h
  simp [begin, hblank, hquote, h]

theorem isNumeralChar_of_mem_unsignedChars {n : Numeral} (h : n.IsWellFormed) {c : Char}
    (hc : c ∈ n.unsignedChars) : Numeral.isNumeralChar c = true := by
  obtain ⟨_, hwhole⟩ := Decimal.isNumeral_iff.1 h.whole
  unfold Numeral.unsignedChars Numeral.pointChars at hc
  -- From the front: digits, a point and digits, then the sign and the digits of an exponent.
  rcases List.mem_append.1 hc with hc | hc
  · exact isNumeralChar_of_isDigit (hwhole c hc)
  rcases List.mem_append.1 hc with hc | hc
  · split at hc
    · cases hc
    · rcases List.mem_cons.1 hc with rfl | hc
      · rfl
      · exact isNumeralChar_of_isDigit (h.fraction c hc)
  · cases hexponent : n.exponent with
    | none =>
      rw [hexponent] at hc
      cases hc
    | some e =>
      obtain ⟨_, hdigits⟩ := Decimal.isNumeral_iff.1 (h.exponent e hexponent)
      rw [hexponent] at hc
      rcases List.mem_cons.1 hc with rfl | hc
      · rfl
      rcases List.mem_cons.1 hc with rfl | hc
      · cases e.negative <;> rfl
      · exact isNumeralChar_of_isDigit (hdigits c hc)

/-- A numeral is left open at its end. -/
theorem foldlM_numeralChars (ts : List Token) {n : Numeral} (h : n.IsWellFormed) :
    ∃ s, n.chars.foldlM step ⟨ts, .between⟩ = some s ∧ s.Took (.num n :: ts) := by
  -- After its first character, be it a sign or a digit, the numeral goes on.
  have hread : ∀ {first : Char} {cs : List Char}, n.chars = first :: cs →
      begin ts first = some ⟨ts, .numeral [first]⟩ →
      (∀ c ∈ cs, Numeral.isNumeralChar c = true) →
      ∃ s, n.chars.foldlM step ⟨ts, .between⟩ = some s ∧ s.Took (.num n :: ts) := by
    intro first cs hchars hbegin hcs
    refine ⟨⟨ts, .numeral (cs.reverse ++ [first])⟩, ?_, .numeral ?_⟩
    · have hstep : step ⟨ts, .between⟩ first = some ⟨ts, .numeral [first]⟩ := hbegin
      rw [hchars, foldlM_cons_of_eq_some hstep, foldlM_numeral ts _ hcs]
    · rw [← Numeral.ofChars?_chars h, hchars]
      simp
  -- Only a sign or a digit can stand in front.
  cases hnegative : n.negative with
  | true =>
    have hchars : n.chars = '-' :: n.unsignedChars := by simp [Numeral.chars, hnegative]
    exact hread hchars rfl fun c hc => isNumeralChar_of_mem_unsignedChars h hc
  | false =>
    obtain ⟨hne, hwhole⟩ := Decimal.isNumeral_iff.1 h.whole
    cases hds : n.whole with
    | nil => exact absurd hds hne
    | cons d ds =>
      rw [hds] at hwhole
      have hunsigned : n.unsignedChars = d :: (ds ++ (Numeral.pointChars n.fraction ++
          n.exponent.elim [] Numeral.Exponent.chars)) := by
        unfold Numeral.unsignedChars
        rw [hds]
        rfl
      refine hread ?_ (begin_of_isDigit ts (hwhole d List.mem_cons_self)) fun c hc =>
        isNumeralChar_of_mem_unsignedChars h (hunsigned ▸ List.mem_cons_of_mem d hc)
      rw [Numeral.chars, hnegative, hunsigned]
      rfl

/-- A number is left open at its end. -/
theorem foldlM_number (ts : List Token) (n : Number) :
    ∃ s, n.chars.foldlM step ⟨ts, .between⟩ = some s ∧ s.Took (.num (.ofNumber n) :: ts) := by
  obtain ⟨hn, hchars⟩ := Numeral.ofNumber_spec n
  rw [← hchars]
  exact foldlM_numeralChars ts hn

end Scanner

open Scanner (Took)

variable {s : Scanner} {ts : List Token}

/-- After a mark the scanner is between tokens. -/
theorem foldlM_mark (h : s.Took ts) {c : Char} {t : Token} (hlower : c.isLower = false)
    (hnumeral : Numeral.isNumeralChar c = false)
    (hbegin : Scanner.begin ts c = some ⟨t :: ts, .between⟩) (cs : List Char) :
    (c :: cs).foldlM Scanner.step s = cs.foldlM Scanner.step ⟨t :: ts, .between⟩ :=
  foldlM_cons_of_eq_some ((h.step hlower hnumeral).trans hbegin) cs

mutual

/-- The scanner takes the tokens of a value. -/
theorem foldlM_chars : ∀ (j : Json) (ts : List Token),
    ∃ s, (chars j).foldlM Scanner.step ⟨ts, .between⟩ = some s ∧ s.Took (j.tokens.reverse ++ ts)
  | .null, ts => ⟨_, rfl, .word rfl⟩
  | .bool true, ts => ⟨_, rfl, .word rfl⟩
  | .bool false, ts => ⟨_, rfl, .word rfl⟩
  | .num n, ts => Scanner.foldlM_number ts n
  | .str s, ts => ⟨_, Scanner.foldlM_quote ts s, .between _⟩
  | .arr [], ts => ⟨_, rfl, .between _⟩
  | .arr (j :: rest), ts => by
    -- An open bracket, the first value, then each of the rest behind its comma, and the bracket
    -- that closes. The brackets and commas end whatever token is still open before them.
    obtain ⟨s₁, hs₁, htook₁⟩ := foldlM_chars j (.openArr :: ts)
    obtain ⟨s₂, hs₂, htook₂⟩ := foldlM_itemChars rest htook₁
    have htokens : (Json.arr (j :: rest)).tokens.reverse ++ ts =
        .closeArr :: ((itemTokens rest).reverse ++ (j.tokens.reverse ++ .openArr :: ts)) := by
      simp [tokens]
    rw [htokens]
    refine ⟨_, ?_, .between _⟩
    rw [chars, foldlM_mark (.between ts) rfl rfl rfl, foldlM_append_of_eq_some hs₁]
    rw [foldlM_append_of_eq_some hs₂, foldlM_mark htook₂ rfl rfl rfl]
    rfl
  | .obj [], ts => ⟨_, rfl, .between _⟩
  | .obj ((k, j) :: rest), ts => by
    obtain ⟨s₁, hs₁, htook₁⟩ := foldlM_chars j (.colon :: .str (some k) :: .openObj :: ts)
    obtain ⟨s₂, hs₂, htook₂⟩ := foldlM_fieldChars rest htook₁
    have htokens : (Json.obj ((k, j) :: rest)).tokens.reverse ++ ts =
        .closeObj :: ((fieldTokens rest).reverse ++
          (j.tokens.reverse ++ .colon :: .str (some k) :: .openObj :: ts)) := by
      simp [tokens]
    rw [htokens]
    refine ⟨_, ?_, .between _⟩
    rw [chars, foldlM_mark (.between ts) rfl rfl rfl]
    rw [foldlM_append_of_eq_some (Scanner.foldlM_quote _ k), foldlM_mark (.between _) rfl rfl rfl]
    rw [foldlM_append_of_eq_some hs₁, foldlM_append_of_eq_some hs₂]
    rw [foldlM_mark htook₂ rfl rfl rfl]
    rfl

theorem foldlM_itemChars : ∀ (items : List Json) {s : Scanner} {ts : List Token}, s.Took ts →
    ∃ s', (itemChars items).foldlM Scanner.step s = some s' ∧
      s'.Took ((itemTokens items).reverse ++ ts)
  | [], s, ts, htook => ⟨s, rfl, htook⟩
  | j :: rest, s, ts, htook => by
    obtain ⟨s₁, hs₁, htook₁⟩ := foldlM_chars j (.comma :: ts)
    obtain ⟨s₂, hs₂, htook₂⟩ := foldlM_itemChars rest htook₁
    refine ⟨s₂, ?_, by simpa [itemTokens] using htook₂⟩
    rw [itemChars, foldlM_mark htook rfl rfl rfl, foldlM_append_of_eq_some hs₁, hs₂]

theorem foldlM_fieldChars : ∀ (fields : List (String × Json)) {s : Scanner} {ts : List Token},
    s.Took ts →
    ∃ s', (fieldChars fields).foldlM Scanner.step s = some s' ∧
      s'.Took ((fieldTokens fields).reverse ++ ts)
  | [], s, ts, htook => ⟨s, rfl, htook⟩
  | (k, j) :: rest, s, ts, htook => by
    obtain ⟨s₁, hs₁, htook₁⟩ := foldlM_chars j (.colon :: .str (some k) :: .comma :: ts)
    obtain ⟨s₂, hs₂, htook₂⟩ := foldlM_fieldChars rest htook₁
    refine ⟨s₂, ?_, by simpa [fieldTokens] using htook₂⟩
    rw [fieldChars, foldlM_mark htook rfl rfl rfl]
    rw [foldlM_append_of_eq_some (Scanner.foldlM_quote _ k), foldlM_mark (.between _) rfl rfl rfl]
    rw [foldlM_append_of_eq_some hs₁, hs₂]

end

/-! ## The reader -/

mutual

/-- The reader delivers the tree of a value to whatever is open around it. -/
theorem foldlM_tokens : ∀ (j : Json) (frames : List Frame) (mayClose : Bool),
    j.tokens.foldlM Reader.step (.value frames mayClose) = some (.deliver j.tree frames)
  | .null, _, _ => rfl
  | .bool _, _, _ => rfl
  | .num _, _, _ => rfl
  | .str _, _, _ => rfl
  | .arr [], _, _ => rfl
  | .arr (j :: rest), frames, mayClose => by
    -- The values are delivered to the array one by one, and it collects them in reverse.
    have hopen : Reader.step (.value frames mayClose) .openArr =
        some (.value (.arr [] :: frames) true) := rfl
    rw [tokens, foldlM_cons_of_eq_some hopen]
    rw [foldlM_append_of_eq_some (foldlM_tokens j (.arr [] :: frames) true), Reader.deliver]
    rw [foldlM_append_of_eq_some (foldlM_itemTokens rest [j.tree] frames)]
    simp [Reader.step, tree, treeItems]
  | .obj [], _, _ => rfl
  | .obj ((k, j) :: rest), frames, mayClose => by
    -- A field is its name, a colon and its value.
    have hopen : Reader.step (.value frames mayClose) .openObj = some (.key [] frames true) := rfl
    have hkey : Reader.step (.key [] frames true) (.str (some k)) =
        some (.colon (.obj [] (some k) :: frames)) := rfl
    have hcolon : Reader.step (.colon (.obj [] (some k) :: frames)) .colon =
        some (.value (.obj [] (some k) :: frames) false) := rfl
    rw [tokens, foldlM_cons_of_eq_some hopen, foldlM_cons_of_eq_some hkey]
    rw [foldlM_cons_of_eq_some hcolon]
    rw [foldlM_append_of_eq_some (foldlM_tokens j (.obj [] (some k) :: frames) false)]
    rw [Reader.deliver]
    rw [foldlM_append_of_eq_some (foldlM_fieldTokens rest [(some k, j.tree)] frames)]
    simp [Reader.step, tree, treeFields]

theorem foldlM_itemTokens : ∀ (items : List Json) (seen : List Tree) (frames : List Frame),
    (itemTokens items).foldlM Reader.step (.next (.arr seen :: frames)) =
      some (.next (.arr ((treeItems items).reverse ++ seen) :: frames))
  | [], _, _ => rfl
  | j :: rest, seen, frames => by
    have hcomma : Reader.step (.next (.arr seen :: frames)) .comma =
        some (.value (.arr seen :: frames) false) := rfl
    rw [itemTokens, foldlM_cons_of_eq_some hcomma]
    rw [foldlM_append_of_eq_some (foldlM_tokens j (.arr seen :: frames) false)]
    refine (foldlM_itemTokens rest (j.tree :: seen) frames).trans ?_
    simp [treeItems]

theorem foldlM_fieldTokens : ∀ (fields : List (String × Json))
    (seen : List (Option String × Tree)) (frames : List Frame),
    (fieldTokens fields).foldlM Reader.step (.next (.obj seen none :: frames)) =
      some (.next (.obj ((treeFields fields).reverse ++ seen) none :: frames))
  | [], _, _ => rfl
  | (k, j) :: rest, seen, frames => by
    have hcomma : Reader.step (.next (.obj seen none :: frames)) .comma =
        some (.key seen frames false) := rfl
    have hkey : Reader.step (.key seen frames false) (.str (some k)) =
        some (.colon (.obj seen (some k) :: frames)) := rfl
    have hcolon : Reader.step (.colon (.obj seen (some k) :: frames)) .colon =
        some (.value (.obj seen (some k) :: frames) false) := rfl
    rw [fieldTokens, foldlM_cons_of_eq_some hcomma, foldlM_cons_of_eq_some hkey]
    rw [foldlM_cons_of_eq_some hcolon]
    rw [foldlM_append_of_eq_some (foldlM_tokens j (.obj seen (some k) :: frames) false)]
    refine (foldlM_fieldTokens rest ((some k, j.tree) :: seen) frames).trans ?_
    simp [treeFields]

end

/-- The text of a value is read as its tree. -/
theorem ofText?_compact (j : Json) : Tree.ofText? j.compact = some j.tree := by
  obtain ⟨s, hs, htook⟩ := foldlM_chars j []
  have htokens : tokens? (chars j) = some j.tokens := by
    unfold tokens? Scanner.start
    rw [hs, Option.bind_some, htook.finish]
    simp
  unfold Tree.ofText? Tree.ofChars? Tree.ofTokens? Reader.start compact
  rw [String.toList_ofList, htokens, Option.bind_some, foldlM_tokens j _ _]
  rfl

end Json

end DurableState
