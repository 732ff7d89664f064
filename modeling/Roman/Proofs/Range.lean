import Roman.Draw
import Roman.Proofs.Canonical
import Roman.Proofs.Session

/-!
# The range of numerals

A numeral carries the proof that its number is from 1 to 3999. Where it is made from an exact
integer, that integer is checked; where it is read, its number is a sum of words of 16 bits that
nobody checks. `Spelling.decodeWord?` makes that sum as a machine does. It never overflows: it
is the exact sum, checked once (`Spelling.decodeWord?_eq`), which the grammar keeps below 4000.

Sums, differences and products of operands fit into 128 bits
(`Operator.isWide_of_exactResult?`), and the answer to them is the numeral of the exact integer,
or a fault that holds it (`Operator.apply_of_exactResult?`), never something cut off or wrapped.
So the numbers of the numerals that any composition of operations gives are those from 1 to 3999
(`Numeral.range_kept`).
-/

namespace Roman

/-! ### Sums of 16 bits -/

namespace Word

/-- The word of a number, if it fits into 16 bits. -/
def ofNat? (n : Nat) : Option UInt16 := if n < UInt16.size then some (.ofNat n) else none

/-- The sum of two words, if it fits into a word. -/
def checkedAdd (a b : UInt16) : Option UInt16 := ofNat? (a.toNat + b.toNat)

theorem ofNat?_eq_some_iff {n : Nat} {w : UInt16} : ofNat? n = some w ↔ w.toNat = n := by
  rw [ofNat?]
  constructor
  · intro h
    split at h
    next hn =>
      cases h
      exact UInt16.toNat_ofNat_of_lt hn
    next => cases h
  · rintro rfl
    rw [if_pos w.toNat_lt, UInt16.ofNat_toNat]

/-- A sum that goes on from a number is checked once: if the number does not fit, a larger one
does not either. -/
theorem ofNat?_bind {m n : Nat} {f : UInt16 → Option UInt16} (hle : m ≤ n)
    (hf : ∀ w : UInt16, w.toNat = m → f w = ofNat? n) : (ofNat? m >>= f) = ofNat? n := by
  cases hm : ofNat? m with
  | some w => exact hf w (ofNat?_eq_some_iff.mp hm)
  | none =>
    have hsize : ¬ m < UInt16.size := fun hlt => by simp [ofNat?, hlt] at hm
    rw [ofNat?, if_neg (by omega)]
    rfl

end Word

/-- The word that a letter counts. -/
def Letter.word (a : Letter) : UInt16 := .ofNat a.value

/-- The word that a pair counts. -/
def Pair.word (p : Pair) : UInt16 := .ofNat p.value

theorem Letter.toNat_word (a : Letter) : a.word.toNat = a.value := by
  cases a <;> decide

theorem Pair.toNat_word {p : Pair} (h : p ∈ Pair.all) : p.word.toNat = p.value := by
  revert p
  decide

namespace Spelling

/-- The sum of the letters of a spelling onto a word, from left to right. -/
def totalWord? (w : UInt16) : Spelling → Option UInt16
  | [] => some w
  | a :: s => do totalWord? (← Word.checkedAdd w a.word) s

/-- Decodes a spelling with the given pairs, counting them onto a word one after the other and
then the letters that are left, which are summed up first. -/
def decodeWordWith? : List Pair → UInt16 → Spelling → Option UInt16
  | [], w, s => do Word.checkedAdd w (← totalWord? 0 s)
  | p :: ps, w, s =>
    match cut? p s with
    | some rest => do decodeWordWith? ps (← Word.checkedAdd w p.word) rest
    | none => decodeWordWith? ps w s

/-- The word that a spelling is decoded to, if no sum on the way overflows. -/
def decodeWord? (s : Spelling) : Option UInt16 := decodeWordWith? Pair.all 0 s

theorem totalWord?_eq (w : UInt16) (s : Spelling) :
    totalWord? w s = Word.ofNat? (w.toNat + s.total) := by
  induction s generalizing w with
  | nil => exact (Word.ofNat?_eq_some_iff.mpr rfl).symm
  | cons a s ih =>
    rw [totalWord?, Word.checkedAdd, Letter.toNat_word, total]
    refine Word.ofNat?_bind (by omega) fun v hv => ?_
    rw [ih, hv, Nat.add_assoc]

theorem decodeWordWith?_eq {ps : List Pair} (hps : ∀ p ∈ ps, p.word.toNat = p.value) (w : UInt16)
    (s : Spelling) : decodeWordWith? ps w s = Word.ofNat? (w.toNat + decodeWith ps s) := by
  induction ps generalizing w s with
  | nil =>
    rw [decodeWordWith?, decodeWith, totalWord?_eq]
    refine Word.ofNat?_bind (by simp) fun v hv => ?_
    rw [Word.checkedAdd, hv, UInt16.toNat_zero, Nat.zero_add]
  | cons p ps ih =>
    obtain ⟨hp, hps⟩ := List.forall_mem_cons.mp hps
    rw [decodeWordWith?, decodeWith]
    cases cut? p s with
    | none => exact ih hps w s
    | some rest =>
      dsimp only
      rw [Word.checkedAdd, hp]
      refine Word.ofNat?_bind (by omega) fun v hv => ?_
      rw [ih hps, hv, Nat.add_assoc]

/-- No sum on the way overflows unless the whole does. -/
theorem decodeWord?_eq (s : Spelling) : s.decodeWord? = Word.ofNat? s.decode := by
  have hps : ∀ p ∈ Pair.all, p.word.toNat = p.value := fun p hp => Pair.toNat_word hp
  rw [decodeWord?, decodeWordWith?_eq hps, UInt16.toNat_zero, Nat.zero_add, decode]

/-- A well-formed spelling is decoded without overflow, to the number of its numeral. -/
theorem WellFormed.decodeWord?_eq_some_iff {s : Spelling} (h : s.WellFormed) {w : UInt16} :
    s.decodeWord? = some w ↔ w.toNat = (Numeral.ofSpelling ⟨s, h⟩).decimal := by
  rw [decodeWord?_eq, Word.ofNat?_eq_some_iff]
  rfl

end Spelling

/-! ### Sums, differences and products of 128 bits -/

/-- Whether an integer fits into 128 bits. -/
def IsWide (n : Int) : Prop := -2 ^ 127 ≤ n ∧ n < 2 ^ 127

/-- The number of a numeral fits into a word of 64 bits with a sign. -/
theorem Numeral.toInt_ofNat_decimal (n : Numeral) : (Int64.ofNat n.decimal).toInt = n.decimal :=
  Int64.toInt_ofNat_of_lt (Nat.lt_of_le_of_lt n.le_max (by decide))

theorem Operand.decimal_bounds (o : Operand) : -2 ^ 63 ≤ o.decimal ∧ o.decimal < 2 ^ 63 := by
  have hnumeral (n : Numeral) : -2 ^ 63 ≤ (n.decimal : Int) ∧ (n.decimal : Int) < 2 ^ 63 := by
    have hle := n.le_max
    omega
  cases o with
  | numeral n => exact hnumeral n
  | text n => exact hnumeral n
  | plain i => exact ⟨i.le_toInt, i.toInt_lt⟩

namespace Operator

/-- The exact sum, difference or product of two integers. -/
def exactResult? (operator : Operator) (a b : Int) : Option Int :=
  match operator with
  | add => some (a + b)
  | subtract => some (a - b)
  | multiply => some (a * b)
  | divide | floorDivide | modulo | power => none

/-- The exact result for two operands fits into 128 bits. -/
theorem isWide_of_exactResult? {operator : Operator} {l r : Operand} {n : Int}
    (h : operator.exactResult? l.decimal r.decimal = some n) : IsWide n := by
  obtain ⟨hl, hl'⟩ := l.decimal_bounds
  obtain ⟨hr, hr'⟩ := r.decimal_bounds
  cases operator with
  | add =>
    cases h
    constructor <;> omega
  | subtract =>
    cases h
    constructor <;> omega
  | multiply =>
    cases h
    have hl_abs : |l.decimal| ≤ 2 ^ 63 := abs_le.mpr ⟨hl, hl'.le⟩
    have hr_abs : |r.decimal| ≤ 2 ^ 63 := abs_le.mpr ⟨hr, hr'.le⟩
    have hproduct : |l.decimal * r.decimal| ≤ 2 ^ 63 * 2 ^ 63 := by
      rw [abs_mul]
      exact mul_le_mul hl_abs hr_abs (abs_nonneg _) (by norm_num)
    obtain ⟨hlow, hhigh⟩ := abs_le.mp hproduct
    constructor <;> omega
  | divide | floorDivide | modulo | power => cases h

end Operator

/-! ### Exact answers -/

/-- An outcome that answers an exact integer. -/
structure Answers (n : Int) (outcome : Except Fault Value) : Prop where
  /-- With the numeral of the integer, if it has one. -/
  numeral : ∀ m : Numeral, (m.decimal : Int) = n → outcome = .ok (.numeral m)
  /-- With a fault that holds the integer, if it is out of range. -/
  range : n < 1 ∨ 3999 < n → outcome = .error (.range n)

theorem answers_ofInt (n : Int) : Answers n ((Numeral.ofInt n).map .numeral) where
  numeral m hm := by
    rw [Numeral.ofInt_eq_ok_iff.mpr hm]
    rfl
  range hn := by
    rw [Numeral.ofInt_eq_error_iff.mpr ⟨rfl, hn⟩]
    rfl

namespace Operator

/-- A sum of text and a numeral, which concatenates them. -/
def Concatenates (operator : Operator) (l r : Operand) : Prop :=
  operator = add ∧ (∃ a, l = .text a) ∧ ∃ b, r = .numeral b

/-- Where a numeral takes part and nothing is concatenated, the exact result is turned into a
numeral. -/
theorem apply_of_exactResult? {operator : Operator} {l r : Operand} {n : Int}
    (hn : operator.exactResult? l.decimal r.decimal = some n)
    (hnumeral : (∃ a, l = .numeral a) ∨ ∃ b, r = .numeral b)
    (hconcatenates : ¬ operator.Concatenates l r) :
    operator.apply l r = (Numeral.ofInt n).map .numeral := by
  have hstep : operator.applyNumeral l r = (Numeral.ofInt n).map .numeral := by
    cases operator <;> cases hn <;> rfl
  cases l with
  | numeral a => exact hstep
  | plain i =>
    obtain ⟨b, rfl⟩ := hnumeral.resolve_left nofun
    exact hstep
  | text a =>
    obtain ⟨b, rfl⟩ := hnumeral.resolve_left nofun
    have hadd : operator ≠ add := fun hadd => hconcatenates ⟨hadd, ⟨a, rfl⟩, b, rfl⟩
    rw [apply, if_neg hadd, hstep]

theorem applySources_of_coerce {operator : Operator} {left right : Operand.Source} {l r : Operand}
    (hl : left.coerce = .ok l) (hr : right.coerce = .ok r) :
    operator.applySources left right = operator.apply l r := by
  rw [applySources, hl, hr]
  rfl

end Operator

/-! ### What can be obtained -/

/-- The numeral that an operand is, given as text or not. -/
def Operand.numeral? : Operand → Option Numeral
  | numeral n => some n
  | text n => some n
  | plain _ => none

/-- The numeral that a source of an operand holds. -/
def Operand.Source.numeral? : Operand.Source → Option Numeral
  | value v => v.numeral?
  | operand o => o.numeral?

/-- What is drawn is the number of a numeral, with its canonical form. -/
theorem Draw.exists_numeral {least greatest : Int} {words : List UInt64} {d : Draw}
    (h : between least greatest words = .ok d) :
    ∃ n : Numeral, (n.decimal : Int) = d.decimal ∧ n.canonical = d.numeral := by
  dsimp only [between] at h
  split at h
  next => cases h
  next =>
    split at h
    next => cases h
    next =>
      obtain ⟨text, htext, rfl⟩ := Outcome.map_eq_ok_iff.mp h
      exact toNumeral_eq_ok_iff.mp htext

/-- A variable of a store holds a numeral. -/
def Store.Holds (s : Store) (n : Numeral) : Prop :=
  ∃ name v, s.find? name = some v ∧ v.value = .numeral n

namespace Numeral

/-- The numbers of the numerals that are obtained by composing operations: each operation is
given what was obtained before. -/
inductive Obtained : Nat → Prop where
  /-- A text is read, and the word that it is summed up to is taken unchecked. -/
  | parsed {text : String} {s : { s : Spelling // s.WellFormed }} {w : UInt16}
      (htext : Spelling.ofText text = .ok s) (hw : s.1.decodeWord? = some w) : Obtained w.toNat
  /-- A numeral is made from an integer. -/
  | made {i : Int64} {n : Numeral} (h : ofInt i.toInt = .ok n) : Obtained n.decimal
  /-- Two numerals are added. -/
  | added {a b n : Numeral} (ha : Obtained a.decimal) (hb : Obtained b.decimal)
      (h : a.add b = .ok n) : Obtained n.decimal
  /-- A numeral is subtracted from another one. -/
  | subtracted {a b n : Numeral} (ha : Obtained a.decimal) (hb : Obtained b.decimal)
      (h : a.subtract b = .ok n) : Obtained n.decimal
  /-- Two numerals are multiplied. -/
  | multiplied {a b n : Numeral} (ha : Obtained a.decimal) (hb : Obtained b.decimal)
      (h : a.multiply b = .ok n) : Obtained n.decimal
  /-- An operand is coerced. -/
  | coerced {source : Operand.Source} {o : Operand} {n : Numeral}
      (hsource : ∀ m, source.numeral? = some m → Obtained m.decimal) (h : source.coerce = .ok o)
      (ho : o.numeral? = some n) : Obtained n.decimal
  /-- An operator is applied to two operands of any shapes. -/
  | applied {operator : Operator} {left right : Operand.Source} {n : Numeral}
      (hleft : ∀ m, left.numeral? = some m → Obtained m.decimal)
      (hright : ∀ m, right.numeral? = some m → Obtained m.decimal)
      (h : operator.applySources left right = .ok (.numeral n)) : Obtained n.decimal
  /-- A number is drawn. -/
  | drawn {least greatest : Int64} {words : List UInt64} {d : Draw} {k : Nat}
      (h : Draw.between least.toInt greatest.toInt words = .ok d) (hk : (k : Int) = d.decimal) :
      Obtained k
  /-- A token is resolved in a store. -/
  | resolved {s : Store} {token : String} {n : Numeral} (hs : ∀ m, s.Holds m → Obtained m.decimal)
      (h : s.resolve token = .ok (.numeral n)) : Obtained n.decimal
  /-- A value is converted. -/
  | converted {v : Value} {n : Numeral} (hv : ∀ m, v.numeral? = some m → Obtained m.decimal)
      (h : Command.converted v = .ok (.numeral n)) : Obtained n.decimal
  /-- A command is carried out, in its own category or in another one. -/
  | handled {category : Category} {c : Command} {s : Store} {n : Numeral}
      (hs : ∀ m, s.Holds m → Obtained m.decimal)
      (h : (c.handle category s).outcome = .ok (some (.numeral n))) : Obtained n.decimal
  /-- A statement is carried out. -/
  | answered {statement : String} {s : Store} {n : Numeral}
      (hs : ∀ m, s.Holds m → Obtained m.decimal)
      (h : (executeStatement statement s).outcome = .ok (some (.numeral n))) : Obtained n.decimal
  /-- A line is carried out, and this is one of its results. -/
  | result {line : String} {s : Store} {n : Numeral} (hs : ∀ m, s.Holds m → Obtained m.decimal)
      (h : .numeral n ∈ (Run.ofLine line s).execution.results) : Obtained n.decimal
  /-- A script is carried out, and this is one of its results. -/
  | script {source : String} {n : Numeral}
      (h : .numeral n ∈ (Run.ofScript source).execution.results) : Obtained n.decimal
  /-- A variable holds it when an interpreter has been called. -/
  | held {call : Call} {s : Store} {n : Numeral} (hs : ∀ m, s.Holds m → Obtained m.decimal)
      (h : (call.store s).Holds n) : Obtained n.decimal

/-- What is read is in range because the grammar accepted it, and what is drawn because it has
a numeral; everything else is the number of a numeral already. -/
theorem Obtained.bounds {k : Nat} (h : Obtained k) : 1 ≤ k ∧ k ≤ 3999 := by
  have hnumeral (n : Numeral) : 1 ≤ n.decimal ∧ n.decimal ≤ 3999 := ⟨n.one_le, n.le_max⟩
  cases h with
  | @parsed text s w htext hw =>
    rw [s.2.decodeWord?_eq_some_iff.mp hw]
    exact hnumeral (ofSpelling s)
  | @drawn least greatest words d k h hk =>
    obtain ⟨n, hn, -⟩ := Draw.exists_numeral h
    obtain rfl : n.decimal = k := Int.ofNat_inj.mp (hn.trans hk.symm)
    exact hnumeral n
  | made | added | subtracted | multiplied | coerced | applied | resolved | converted | handled
  | answered | result | script | held => exact hnumeral _

/-- Every number in range is obtained from the integer that it is. -/
theorem obtained_of_bounds {k : Nat} (h : 1 ≤ k ∧ k ≤ 3999) : Obtained k := by
  have hword : (Int64.ofNat k).toInt = k := Int64.toInt_ofNat_of_lt (by omega)
  have hmade : ofInt (Int64.ofNat k).toInt = .ok ⟨k, h.1, h.2⟩ := ofInt_eq_ok_iff.mpr hword.symm
  exact .made hmade

/-- A text that the grammar accepts is summed up without overflow, to the number of the numeral
that it is read as. -/
theorem exists_word_of_ofText {text : String} {s : { s : Spelling // s.WellFormed }}
    (h : Spelling.ofText text = .ok s) :
    ∃ w n, s.1.decodeWord? = some w ∧ parse text = .ok n ∧ w.toNat = n.decimal := by
  have hlt : (ofSpelling s).decimal < UInt16.size :=
    Nat.lt_of_le_of_lt (ofSpelling s).le_max (by decide)
  have hw := UInt16.toNat_ofNat_of_lt hlt
  refine ⟨.ofNat (ofSpelling s).decimal, ofSpelling s, ?_, ?_, hw⟩
  · exact s.2.decodeWord?_eq_some_iff.mpr hw
  · rw [parse, h]
    rfl

/-- **The range is kept, and no sum is wrapped.** The numbers of the numerals that any
composition of operations gives are those from 1 to 3999. The sum of 16 bits that a text is
read with never overflows for a text that is accepted, and is the number of its numeral. The
sums, differences and products of 128 bits never overflow, for operands or for numerals alone.
And where a numeral takes part in one of these three and nothing is concatenated, the answer is
the numeral of the exact integer, or, if that is out of range, a fault that holds it. -/
theorem range_kept :
    (∀ k : Nat, Obtained k ↔ 1 ≤ k ∧ k ≤ 3999) ∧
    (∀ (text : String) (s : { s : Spelling // s.WellFormed }), Spelling.ofText text = .ok s →
      ∃ w n, s.1.decodeWord? = some w ∧ parse text = .ok n ∧ w.toNat = n.decimal) ∧
    (∀ (operator : Operator) (l r : Operand) (n : Int),
      operator.exactResult? l.decimal r.decimal = some n → IsWide n) ∧
    (∀ (operator : Operator) (a b : Numeral) (n : Int),
      operator.exactResult? a.decimal b.decimal = some n → IsWide n) ∧
    (∀ (operator : Operator) (left right : Operand.Source) (l r : Operand) (n : Int),
      left.coerce = .ok l → right.coerce = .ok r →
      operator.exactResult? l.decimal r.decimal = some n →
      ((∃ a, l = .numeral a) ∨ ∃ b, r = .numeral b) → ¬ operator.Concatenates l r →
        Answers n (operator.applySources left right)) ∧
    (∀ a b : Numeral,
      Answers (a.decimal + b.decimal) ((a.add b).map .numeral) ∧
      Answers (a.decimal - b.decimal) ((a.subtract b).map .numeral) ∧
      Answers (a.decimal * b.decimal) ((a.multiply b).map .numeral)) := by
  refine ⟨fun k => ⟨Obtained.bounds, obtained_of_bounds⟩, fun text s h => exists_word_of_ofText h,
    fun operator l r n h => Operator.isWide_of_exactResult? h, fun operator a b n h => ?_,
    fun operator left right l r n hl hr hn hnumeral hconcatenates => ?_,
    fun a b => ⟨answers_ofInt _, answers_ofInt _, answers_ofInt _⟩⟩
  · exact Operator.isWide_of_exactResult? (l := .numeral a) (r := .numeral b) h
  · rw [Operator.applySources_of_coerce hl hr,
      Operator.apply_of_exactResult? hn hnumeral hconcatenates]
    exact answers_ofInt n

/-- The greatest numeral is obtained, and the text of one cannot be added to it. -/
theorem range_kept_highest :
    Obtained 3999 ∧
      Operator.add.applySources (.operand (.numeral ⟨3999, by decide, by decide⟩))
        (.value (.text "I")) = .error (.range 4000) := by
  obtain ⟨hobtained, -, -, -, hanswers, -⟩ := range_kept
  refine ⟨(hobtained 3999).mpr (by decide), ?_⟩
  refine (hanswers .add _ _ (.numeral ⟨3999, by decide, by decide⟩)
    (.text ⟨1, by decide, by decide⟩) 4000 rfl rfl rfl (.inl ⟨_, rfl⟩) ?_).range (by decide)
  rintro ⟨-, ⟨a, ha⟩, -⟩
  cases ha

end Numeral

end Roman
