import PhxSql.Lib.SortedMap
import PhxSql.Lib.Bytes
import PhxSql.Proxy.FreqCtrl

/-!
# Which bucket a query is charged to

`FreqFilterPlugin::CanExecute` looks for `INSERT`, `UPDATE`, `REPLACE` and `DELETE` among the words
of a query and applies for a write token if there is one. Words are separated by spaces and
semicolons. The loop of the source steps over the byte behind a separator without looking at it, and
it compares a word only when it comes to the separator behind it.

`scanWords_iff` says which words are found: those with a separator behind them that stand at the
beginning of the text or behind an odd number of separators. `charged_by_words_iff` is the exact
condition under which the choice of the bucket is that of the words.
-/

set_option autoImplicit false

namespace PhxSql.Proxy

open PhxSql.Proto PhxSql.Lib

/-! ## The configuration -/

/-- `FreqCtrlConfig::db_bucket_`. -/
abbrev FreqCtrlConfig := SortedMap Bytes FreqCtrlBucket byteRank

/-- `FreqCtrlConfig::Apply`. -/
def FreqCtrlConfig.apply (config : FreqCtrlConfig) (now : Nat) (dbName : Bytes)
    (isWriteQuery : Bool) : Bool × FreqCtrlConfig :=
  match config.find? dbName with
  | none => (true, config)
  | some bucket =>
    let applied :=
      if isWriteQuery then bucket.applyWriteToken now 1 else bucket.applyReadToken now 1
    (applied.1, config.insert dbName applied.2)

/-! ## The filter -/

/-- `COM_QUERY`. -/
def comQuery : UInt8 := 3

/-- A space or a semicolon. -/
def isDelimiter (b : UInt8) : Bool :=
  decide (b = 32 ∨ b = 59)

/-- `toupper` in the C locale. -/
def toUpper (b : UInt8) : UInt8 :=
  if 97 ≤ b ∧ b ≤ 122 then b - 32 else b

/-- `write_queries`: `INSERT`, `UPDATE`, `REPLACE`, `DELETE`. -/
def writeQueries : List Bytes :=
  [[73, 78, 83, 69, 82, 84], [85, 80, 68, 65, 84, 69], [82, 69, 80, 76, 65, 67, 69],
    [68, 69, 76, 69, 84, 69]]

/-- The loop of `CanExecute` over the upper-cased text. `word` is the text from `begin` to `i`, and
the list is the text from `i` on. -/
def scanWords : Bytes → Bytes → Bool
  | _, [] => false
  | word, b :: rest =>
    if isDelimiter b then
      if word ≠ [] ∧ word ∈ writeQueries then true
      else
        -- Both the branch and the loop count `i` up, so the next byte only becomes `begin`.
        match rest with
        | [] => false
        | c :: rest => scanWords [c] rest
    else scanWords (word ++ [b]) rest

/-- `FreqFilterPlugin::CanExecute`. -/
def FreqFilterPlugin.canExecute (config : FreqCtrlConfig) (now : Nat) (isMasterPort : Bool)
    (dbName buf : Bytes) : Bool × FreqCtrlConfig :=
  if buf.length < 6 then (true, config)
  else if buf.getD 4 0 ≠ comQuery then (true, config)
  else if isMasterPort = false then config.apply now dbName false
  else config.apply now dbName (scanWords [] ((buf.drop 5).map toUpper))

/-! ## Words -/

/-- A text, split at a write query. -/
structure WriteWord (text before word after : Bytes) : Prop where
  text_eq : text = before ++ (word ++ after)
  word_mem : word ∈ writeQueries

/-- One of the maximal runs of other bytes than separators is a write query. -/
def HasWriteWord (text : Bytes) : Prop :=
  ∃ before word after, WriteWord text before word after ∧
    (∀ b, before.getLast? = some b → isDelimiter b = true) ∧
    (∀ b, after.head? = some b → isDelimiter b = true)

/-- The number of separators at the end of a text. -/
def delimitersBefore (before : Bytes) : Nat :=
  (before.reverse.takeWhile isDelimiter).length

/-- A write query with a separator behind it, at the beginning or behind an odd number of
separators; only those after the first `n` bytes count. -/
def HasPlainWriteWord (n : Nat) (text : Bytes) : Prop :=
  ∃ before word after, WriteWord text before word after ∧ n ≤ before.length ∧
    (before = [] ∨ delimitersBefore before % 2 = 1) ∧
    ∃ b, after.head? = some b ∧ isDelimiter b = true

@[simp] theorem delimitersBefore_nil : delimitersBefore [] = 0 := rfl

theorem delimitersBefore_concat (before : Bytes) (b : UInt8) :
    delimitersBefore (before ++ [b]) =
      if isDelimiter b then delimitersBefore before + 1 else 0 := by
  rw [delimitersBefore, List.reverse_append, List.reverse_singleton, List.singleton_append,
    List.takeWhile_cons]
  split
  · rfl
  · rfl

theorem not_isDelimiter_of_mem {word : Bytes} (hword : word ∈ writeQueries) :
    word ≠ [] ∧ ∀ b ∈ word, isDelimiter b = false := by
  have hall : ∀ word ∈ writeQueries, word ≠ [] ∧ ∀ b ∈ word, isDelimiter b = false := by
    decide +kernel
  exact hall word hword

/-! ## What the loop finds -/

/-- The text before `begin` and the text from there to `i`: separators stand only at `begin`, and if
`begin` is not the beginning, an odd number of them stands before it. -/
structure Begun (before word : Bytes) : Prop where
  tail : ∀ b ∈ word.tail, isDelimiter b = false
  start : (before = [] ∧ ∀ b ∈ word, isDelimiter b = false) ∨
    (word ≠ [] ∧ delimitersBefore before % 2 = 1)

/-- No odd number of separators ends where the loop stands. -/
theorem Begun.even {before word : Bytes} (hbegun : Begun before word) :
    delimitersBefore (before ++ word) % 2 = 0 := by
  rcases List.eq_nil_or_concat' word with rfl | ⟨init, b, rfl⟩
  · rcases hbegun.start with ⟨rfl, -⟩ | ⟨hne, -⟩
    · rfl
    · exact absurd rfl hne
  · rw [← List.append_assoc, delimitersBefore_concat]
    split
    · -- A separator at the end is also the first byte of the word.
      rename_i hdelimiter
      cases init with
      | nil =>
        rcases hbegun.start with ⟨-, hnone⟩ | ⟨-, hodd⟩
        · rw [hnone b (by simp)] at hdelimiter
          cases hdelimiter
        · rw [List.append_nil]
          omega
      | cons c init =>
        rw [hbegun.tail b (by simp)] at hdelimiter
        cases hdelimiter
    · rfl

theorem Begun.concat {before word : Bytes} (hbegun : Begun before word) {b : UInt8}
    (hb : isDelimiter b = false) : Begun before (word ++ [b]) where
  tail := by
    intro b' hb'
    cases word with
    | nil => cases hb'
    | cons c word =>
      rcases List.mem_append.mp hb' with hb' | hb'
      · exact hbegun.tail b' hb'
      · rw [List.mem_singleton.mp hb', hb]
  start := by
    rcases hbegun.start with ⟨hnil, hnone⟩ | ⟨-, hodd⟩
    · refine .inl ⟨hnil, ?_⟩
      intro b' hb'
      rcases List.mem_append.mp hb' with hb' | hb'
      · exact hnone b' hb'
      · rw [List.mem_singleton.mp hb', hb]
    · exact .inr ⟨by simp, hodd⟩

/-- Behind a separator that the loop looks at, any byte becomes `begin`. -/
theorem Begun.next {before word : Bytes} (hbegun : Begun before word) {b : UInt8}
    (hb : isDelimiter b = true) (c : UInt8) : Begun (before ++ word ++ [b]) [c] where
  tail := by simp
  start := by
    refine .inr ⟨by simp, ?_⟩
    have heven := hbegun.even
    rw [delimitersBefore_concat, if_pos hb]
    omega

theorem Begun.take {before x y : Bytes} (hbegun : Begun before (x ++ y)) (hx : x ≠ []) :
    Begun before x where
  tail := by
    intro b hb
    apply hbegun.tail
    cases x with
    | nil => exact absurd rfl hx
    | cons c x => exact List.mem_append_left y hb
  start := by
    rcases hbegun.start with ⟨hnil, hnone⟩ | ⟨-, hodd⟩
    · exact .inl ⟨hnil, fun b hb => hnone b (List.mem_append_left y hb)⟩
    · exact .inr ⟨hx, hodd⟩

/-- What begins behind the first part of a text begins in the second one. -/
theorem exists_append_of_le {first second before rest : Bytes}
    (heq : first ++ second = before ++ rest) (hle : first.length ≤ before.length) :
    ∃ x, before = first ++ x ∧ second = x ++ rest := by
  rcases List.append_eq_append_iff.mp heq with ⟨x, hbefore, hsecond⟩ | ⟨x, hfirst, hrest⟩
  · exact ⟨x, hbefore, hsecond⟩
  · have hnil : x = [] := by
      rw [hfirst, List.length_append] at hle
      exact List.eq_nil_of_length_eq_zero (by omega)
    subst hnil
    rw [List.append_nil] at hfirst
    exact ⟨[], by rw [hfirst, List.append_nil], hrest.symm⟩

theorem mem_tail_append {x word z : Bytes} {c : UInt8} (hword : word ≠ []) :
    c ∈ (x ++ (word ++ c :: z)).tail := by
  have hne : x ++ word ≠ [] := by simp [hword]
  rw [← List.append_assoc, List.tail_append_of_ne_nil hne]
  simp

/-- A word that the loop can find begins at `begin` or behind the next separator. -/
theorem Begun.beyond {first current : Bytes} (hbegun : Begun first current) {b : UInt8}
    (hb : isDelimiter b = true) (hnone : current ∉ writeQueries) {rest before word after : Bytes}
    (hsplit : WriteWord (first ++ (current ++ b :: rest)) before word after)
    (hle : first.length ≤ before.length) (hodd : before = [] ∨ delimitersBefore before % 2 = 1)
    (hafter : ∃ b, after.head? = some b ∧ isDelimiter b = true) :
    (first ++ current ++ [b]).length ≤ before.length := by
  obtain ⟨hne, hplain⟩ := not_isDelimiter_of_mem hsplit.word_mem
  obtain ⟨x, rfl, htext⟩ := exists_append_of_le hsplit.text_eq hle
  rcases List.append_eq_append_iff.mp htext with ⟨y, rfl, hword⟩ | ⟨y, rfl, hword⟩
  · cases y with
    | nil =>
      -- The word would begin with the separator.
      cases word with
      | nil => exact absurd rfl hne
      | cons c word =>
        obtain ⟨rfl, -⟩ := List.cons.inj hword
        rw [hplain b (by simp)] at hb
        cases hb
    | cons c y =>
      simp only [List.length_append, List.length_cons, List.length_nil]
      omega
  · exfalso
    -- The word has no separator, so it ends at this one or before it.
    have hends : word.length ≤ y.length := by
      by_contra hlt
      obtain ⟨z, rfl, hz⟩ := exists_append_of_le hword.symm (by omega)
      cases z with
      | nil => simp at hlt
      | cons c z =>
        obtain ⟨rfl, -⟩ := List.cons.inj hz
        rw [hplain b (by simp)] at hb
        cases hb
    obtain ⟨z, rfl, hz⟩ := exists_append_of_le hword hends
    cases z with
    | nil =>
      -- It is the current word or begins inside of it.
      rw [List.append_nil] at hbegun hnone
      by_cases hx : x = []
      · subst hx
        exact hnone hsplit.word_mem
      · have heven := (hbegun.take hx).even
        rcases hodd with hnil | hodd
        · exact hx (List.append_eq_nil_iff.mp hnil).2
        · omega
    | cons c z =>
      -- A separator inside of the current word.
      obtain ⟨b', hhead, hb'⟩ := hafter
      rw [hz, List.cons_append, List.head?_cons, Option.some.injEq] at hhead
      subst hhead
      rw [hbegun.tail c (mem_tail_append hne)] at hb'
      cases hb'

/-- From a current word that is no write query, the loop goes on behind the next separator. -/
theorem Begun.hasPlainWriteWord_iff {first current : Bytes} (hbegun : Begun first current)
    {b : UInt8} (hb : isDelimiter b = true) (hnone : current ∉ writeQueries) (rest : Bytes) :
    HasPlainWriteWord first.length (first ++ (current ++ b :: rest)) ↔
      HasPlainWriteWord (first ++ current ++ [b]).length (first ++ current ++ [b] ++ rest) := by
  have htext : first ++ current ++ [b] ++ rest = first ++ (current ++ b :: rest) := by simp
  rw [htext]
  constructor
  · rintro ⟨before, word, after, hsplit, hle, hodd, hafter⟩
    exact ⟨before, word, after, hsplit, hbegun.beyond hb hnone hsplit hle hodd hafter, hodd, hafter⟩
  · rintro ⟨before, word, after, hsplit, hle, hodd, hafter⟩
    refine ⟨before, word, after, hsplit, ?_, hodd, hafter⟩
    rw [List.append_assoc, List.length_append] at hle
    omega

/-- No word begins behind the end. -/
theorem not_hasPlainWriteWord (text : Bytes) : ¬HasPlainWriteWord text.length text := by
  rintro ⟨before, word, after, hsplit, hle, -, -⟩
  have hne := (not_isDelimiter_of_mem hsplit.word_mem).1
  have hlength := congrArg List.length hsplit.text_eq
  rw [List.length_append, List.length_append] at hlength
  exact hne (List.eq_nil_of_length_eq_zero (by omega))

/-- The words that the loop finds from `begin` on. -/
theorem scanWords_iff (current rest : Bytes) :
    ∀ first, Begun first current →
      (scanWords current rest = true ↔
        HasPlainWriteWord first.length (first ++ (current ++ rest))) := by
  fun_induction scanWords current rest with
  | case1 current =>
    -- The end of the text: there is no separator behind the current word.
    intro first hbegun
    simp only [Bool.false_eq_true, false_iff]
    rintro ⟨before, word, after, hsplit, hle, -, b, hhead, hb⟩
    obtain ⟨hne, -⟩ := not_isDelimiter_of_mem hsplit.word_mem
    obtain ⟨x, rfl, htext⟩ := exists_append_of_le hsplit.text_eq hle
    cases after with
    | nil => cases hhead
    | cons c after =>
      obtain rfl : c = b := Option.some.inj hhead
      rw [List.append_nil] at htext
      subst htext
      rw [hbegun.tail c (mem_tail_append hne)] at hb
      cases hb
  | case2 current b rest hb hfound =>
    intro first hbegun
    simp only [true_iff]
    refine ⟨first, current, b :: rest, ⟨rfl, hfound.2⟩, le_rfl, ?_, b, rfl, hb⟩
    exact hbegun.start.imp And.left And.right
  | case3 current b hb hnone =>
    intro first hbegun
    have hnone' : current ∉ writeQueries := fun hmem =>
      hnone ⟨(not_isDelimiter_of_mem hmem).1, hmem⟩
    rw [hbegun.hasPlainWriteWord_iff hb hnone', List.append_nil]
    simp only [Bool.false_eq_true, false_iff]
    exact not_hasPlainWriteWord _
  | case4 current b hb hnone c rest ih =>
    intro first hbegun
    have hnone' : current ∉ writeQueries := fun hmem =>
      hnone ⟨(not_isDelimiter_of_mem hmem).1, hmem⟩
    rw [ih _ (hbegun.next hb c), hbegun.hasPlainWriteWord_iff hb hnone']
    rfl
  | case5 current b rest hb ih =>
    intro first hbegun
    rw [ih first (hbegun.concat (Bool.eq_false_iff.mpr hb)), List.append_assoc]
    rfl

theorem scanWords_text_iff (text : Bytes) :
    scanWords [] text = true ↔ HasPlainWriteWord 0 text :=
  scanWords_iff [] text [] { tail := by simp, start := .inl ⟨rfl, by simp⟩ }

/-- What the loop finds are words. -/
theorem HasPlainWriteWord.hasWriteWord {n : Nat} {text : Bytes} (h : HasPlainWriteWord n text) :
    HasWriteWord text := by
  obtain ⟨before, word, after, hsplit, -, hodd, b, hhead, hb⟩ := h
  refine ⟨before, word, after, hsplit, ?_, ?_⟩
  · intro c hc
    rcases List.eq_nil_or_concat' before with rfl | ⟨before, c', rfl⟩
    · cases hc
    · rw [List.getLast?_concat, Option.some.injEq] at hc
      subst hc
      rcases hodd with hnil | hodd
      · simp at hnil
      · by_contra hplain
        rw [delimitersBefore_concat, if_neg hplain] at hodd
        cases hodd
  · intro c hc
    rw [hhead, Option.some.injEq] at hc
    rw [← hc, hb]

/-! ## The bucket that is charged -/

/-- `CanExecute` does what applying for a token of this kind does, in every configuration and for
every database. -/
def Charges (isMasterPort : Bool) (buf : Bytes) (kind : TokenKind) : Prop :=
  ∀ (config : FreqCtrlConfig) (now : Nat) (dbName : Bytes),
    FreqFilterPlugin.canExecute config now isMasterPort dbName buf =
      config.apply now dbName (decide (kind = .write))

/-- A `COM_QUERY` packet: the four bytes of the header, the command and the text. -/
def queryPacket (h₀ h₁ h₂ h₃ : UInt8) (sql : Bytes) : Bytes :=
  h₀ :: h₁ :: h₂ :: h₃ :: comQuery :: sql

/-- A database with one token of each kind. -/
def oneToken : FreqCtrlConfig :=
  SortedMap.empty.insert [] (({} : FreqCtrlBucket).sedbToken ⟨1, 1, 1⟩ 0)

/-- In this configuration one sees which bucket is charged. -/
theorem oneToken_apply :
    oneToken.apply 0 [] true ≠ oneToken.apply 0 [] false ∧
      oneToken.apply 0 [] true ≠ (true, oneToken) ∧ oneToken.apply 0 [] false ≠ (true, oneToken) := by
  have hseen : ∀ a b : Bool × FreqCtrlConfig, a.2.find? [] ≠ b.2.find? [] → a ≠ b := by
    intro a b hne heq
    exact hne (by rw [heq])
  exact ⟨hseen _ _ (by decide +kernel), hseen _ _ (by decide +kernel),
    hseen _ _ (by decide +kernel)⟩

section Packet

variable (h₀ h₁ h₂ h₃ : UInt8) (sql : Bytes)

theorem canExecute_queryPacket (config : FreqCtrlConfig) (now : Nat) (dbName : Bytes) :
    FreqFilterPlugin.canExecute config now true dbName (queryPacket h₀ h₁ h₂ h₃ sql) =
      if sql = [] then (true, config)
      else config.apply now dbName (scanWords [] (sql.map toUpper)) := by
  cases sql with
  | nil => rfl
  | cons b sql => simp [FreqFilterPlugin.canExecute, queryPacket]

theorem charges_queryPacket_iff (kind : TokenKind) :
    Charges true (queryPacket h₀ h₁ h₂ h₃ sql) kind ↔
      sql ≠ [] ∧ scanWords [] (sql.map toUpper) = decide (kind = .write) := by
  obtain ⟨hkinds, hwrite, hread⟩ := oneToken_apply
  simp only [Charges, canExecute_queryPacket]
  by_cases hempty : sql = []
  · simp only [hempty, if_true, ne_eq, not_true_eq_false, false_and, iff_false]
    intro hall
    have hone := hall oneToken 0 []
    cases kind with
    | read => exact hread hone.symm
    | write => exact hwrite hone.symm
  · simp only [hempty, if_false, ne_eq, not_false_eq_true, true_and]
    constructor
    · intro hall
      have hone := hall oneToken 0 []
      by_contra hne
      cases hscan : scanWords [] (sql.map toUpper) with
      | true =>
        cases kind with
        | read =>
          rw [hscan] at hone
          exact hkinds hone
        | write => exact hne hscan
      | false =>
        cases kind with
        | read => exact hne hscan
        | write =>
          rw [hscan] at hone
          exact hkinds hone.symm
    · intro heq config now dbName
      rw [heq]

/-- A query on the master port is charged by its words if and only if its text is not empty and,
when there are write queries among its words, one of them has a separator behind it and stands at
the beginning or behind an odd number of separators. -/
theorem charged_by_words_iff :
    ((Charges true (queryPacket h₀ h₁ h₂ h₃ sql) .write ↔ HasWriteWord (sql.map toUpper)) ∧
      (¬HasWriteWord (sql.map toUpper) →
        Charges true (queryPacket h₀ h₁ h₂ h₃ sql) .read)) ↔
    sql ≠ [] ∧ (HasWriteWord (sql.map toUpper) → HasPlainWriteWord 0 (sql.map toUpper)) := by
  have hscan := scanWords_text_iff (sql.map toUpper)
  have hword := @HasPlainWriteWord.hasWriteWord 0 (sql.map toUpper)
  have hfalse : scanWords [] (sql.map toUpper) = false ↔ ¬HasPlainWriteWord 0 (sql.map toUpper) := by
    rw [← hscan, Bool.not_eq_true]
  rw [charges_queryPacket_iff, charges_queryPacket_iff]
  have hread : decide (TokenKind.read = .write) = false := rfl
  have hwrite : decide (TokenKind.write = .write) = true := rfl
  rw [hread, hwrite, hscan, hfalse]
  tauto

end Packet

/-- The text `  insert into t`, with two spaces at the beginning. -/
def indentedInsert : Bytes :=
  [32, 32, 105, 110, 115, 101, 114, 116, 32, 105, 110, 116, 111, 32, 116]

/-- An insertion behind two spaces is charged as a read, and a query without text is not charged. -/
theorem charged_not_by_words :
    HasWriteWord (indentedInsert.map toUpper) ∧
    Charges true (queryPacket 16 0 0 0 indentedInsert) .read ∧
    ¬Charges true (queryPacket 16 0 0 0 indentedInsert) .write ∧
    ¬HasWriteWord ([].map toUpper) ∧
    ¬Charges true (queryPacket 1 0 0 0 []) .read := by
  refine ⟨?_, ?_, ?_, ?_, ?_⟩
  · exact ⟨[32, 32], [73, 78, 83, 69, 82, 84], [32, 73, 78, 84, 79, 32, 84],
      ⟨by decide, by decide⟩, by rintro b ⟨⟩; rfl, by rintro b ⟨⟩; rfl⟩
  · rw [charges_queryPacket_iff]
    decide
  · rw [charges_queryPacket_iff]
    decide
  · rintro ⟨before, word, after, hsplit, -, -⟩
    have hnil := List.append_eq_nil_iff.mp hsplit.text_eq.symm
    exact (not_isDelimiter_of_mem hsplit.word_mem).1 (List.append_eq_nil_iff.mp hnil.2).1
  · rw [charges_queryPacket_iff]
    simp

end PhxSql.Proxy
