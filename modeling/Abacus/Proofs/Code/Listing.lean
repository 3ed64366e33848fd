import Abacus.Proofs.Session.Batch
import Abacus.Proofs.Tree.Numbers

/-! Reading a listing.  An instruction with the operand that its operation takes, and with no other,
can be read back from its line: the mnemonic ends at the first blank, and it tells how the operand
is written.  The code of every source is of that kind, so its listing determines it. -/

namespace Abacus

open Text (splitLines)

/-! ### The reader -/

namespace Opcode

def all : List Opcode :=
  [pushConst, loadVar, storeVar, pop, add, sub, mul, div, cmpEq, cmpNe, cmpGt, cmpGe, cmpLt, cmpLe,
    print, input, jump, jumpIfFalse]

/-- The operation with a mnemonic. -/
def ofMnemonic? (word : List Char) : Option Opcode := all.find? (·.mnemonic.toList == word)

/-- The instruction of an operation with what stands behind the mnemonic. -/
def withOperand? (op : Opcode) (text : List Char) : Option Instr :=
  match op.operand with
  | .nothing => if text = [] then some (.simple op) else none
  | .value => do
    let number ← [' '].isPrefixOf? text
    let value ← Number.read? (String.ofList number)
    return { Instr.simple op with value }
  | .name => do
    let name ← [' '].isPrefixOf? text
    return .withName op (String.ofList name)
  | .target => do
    let digits ← [' ', '-', '>', ' '].isPrefixOf? text
    if digits ≠ [] ∧ digits.all Char.isDigit then
      return .jumpTo op (Nat.ofDigitChars 10 digits 0)
    else none

end Opcode

/-- The instruction that stands in a line behind the index. -/
def Instr.ofText? (text : List Char) : Option Instr := do
  let op ← Opcode.ofMnemonic? (text.takeWhile (· != ' '))
  op.withOperand? (text.dropWhile (· != ' '))

/-- The instructions of lines, the first of which has the given index. -/
def instrsOfLines? (index : Nat) : List (List Char) → Option (List Instr)
  | [] => some []
  | line :: lines => do
    let text ← (Nat.repr index ++ ": ").toList.isPrefixOf? line
    let first ← Instr.ofText? text
    let others ← instrsOfLines? (index + 1) lines
    return first :: others

/-- The code with a listing. -/
def Code.ofListing? (listing : String) : Option Code :=
  let lines := splitLines listing.toList
  if lines.getLast? = some [] then
    (instrsOfLines? 0 lines.dropLast).map fun instrs => ⟨instrs.toArray⟩
  else none

/-! ### Lines -/

namespace Text

theorem splitLines_flatMap {lines : List (List Char)} (h : ∀ line ∈ lines, '\n' ∉ line) :
    splitLines (lines.flatMap (· ++ ['\n'])) = lines ++ [[]] := by
  induction lines with
  | nil => rfl
  | cons line lines ih =>
    obtain ⟨hFirst, hOthers⟩ := List.forall_mem_cons.mp h
    rw [List.flatMap_cons, List.append_assoc, List.singleton_append,
      splitLines_append_lineFeed, splitLines_of_not_mem hFirst, ih hOthers, List.singleton_append,
      List.cons_append]

end Text

namespace Number

theorem IsDigits.lineFeed_not_mem {digits : List Char} (h : IsDigits digits) : '\n' ∉ digits := by
  intro hMem
  cases h.all _ hMem

theorem lineFeed_not_mem_text {v : Float} (number : magnitude v ≤ infinity) :
    '\n' ∉ (text v).toList := by
  have hUnsigned : '\n' ∉ (if magnitude v = infinity then "Infinity".toList
      else magnitudeText (magnitude v)) := by
    by_cases hInfinite : magnitude v = infinity
    · simp only [hInfinite, if_true]
      decide
    · have hFinite : magnitude v < infinity := Nat.lt_of_le_of_ne number hInfinite
      simp only [hInfinite, if_false]
      intro hMem
      cases (isNumeral_magnitudeText hFinite).all _ hMem
  simp only [text, Nat.not_lt.mpr number, if_false, String.toList_ofList]
  cases isNegative v with
  | true => exact List.not_mem_cons_of_ne_of_not_mem (by decide) hUnsigned
  | false => exact hUnsigned

end Number

/-! ### Instructions that can be read -/

namespace Opcode

theorem ofMnemonic?_mnemonic (op : Opcode) : ofMnemonic? op.mnemonic.toList = some op := by
  cases op <;> decide

theorem blank_not_mem_mnemonic (op : Opcode) : ' ' ∉ op.mnemonic.toList := by
  cases op <;> decide

theorem lineFeed_not_mem_mnemonic (op : Opcode) : '\n' ∉ op.mnemonic.toList := by
  cases op <;> decide

end Opcode

namespace Instr

/-- The instruction has the operand that its operation takes, and it has no other.  Its name stands
in a line, and its value is a number. -/
inductive IsLegible : Instr → Prop
  | constant {value : Float} (number : value.isNaN = false) : IsLegible (.pushConst value)
  | named {op : Opcode} {name : String} (takes : op.operand = .name) (inLine : '\n' ∉ name.toList) :
      IsLegible (.withName op name)
  | jump {op : Opcode} (takes : op.operand = .target) (target : Nat) : IsLegible (.jumpTo op target)
  | bare {op : Opcode} (takes : op.operand = .nothing) : IsLegible (.simple op)

theorem operandText_pushConst (value : Float) :
    (pushConst value).operandText.toList = ' ' :: (Number.text value).toList :=
  String.toList_append

theorem operandText_withName {op : Opcode} (takes : op.operand = .name) (name : String) :
    (withName op name).operandText.toList = ' ' :: name.toList := by
  cases op with
  | loadVar | storeVar | input => exact String.toList_append
  | _ => cases takes

theorem operandText_jumpTo {op : Opcode} (takes : op.operand = .target) (target : Nat) :
    (jumpTo op target).operandText.toList = ' ' :: '-' :: '>' :: ' ' :: Nat.toDigits 10 target := by
  rw [← Nat.toList_repr]
  cases op with
  | jump | jumpIfFalse => exact String.toList_append
  | _ => cases takes

theorem operandText_simple {op : Opcode} (takes : op.operand = .nothing) :
    (simple op).operandText.toList = [] := by
  cases op with
  | pushConst | loadVar | storeVar | input | jump | jumpIfFalse => cases takes
  | _ => rfl

namespace IsLegible

variable {i : Instr}

theorem withOperand?_operandText (h : IsLegible i) :
    i.op.withOperand? i.operandText.toList = some i := by
  cases h with
  | @constant value number =>
    have hRead : Number.read? (Number.text value) = some value :=
      Number.read?_text (Number.magnitude_le_of_isNaN number)
    rw [operandText_pushConst]
    simp [Opcode.withOperand?, pushConst, simple, Opcode.operand, List.isPrefixOf?, hRead]
  | @named op name takes inLine =>
    rw [operandText_withName takes]
    simp [Opcode.withOperand?, withName, simple, takes, List.isPrefixOf?]
  | @jump op takes target =>
    have hDigits := (Number.IsDigits.toDigits target).all
    rw [operandText_jumpTo takes]
    simpa [Opcode.withOperand?, jumpTo, simple, takes, List.isPrefixOf?] using hDigits
  | @bare op takes =>
    rw [operandText_simple takes]
    simp [Opcode.withOperand?, simple, takes]

/-- The operand stands behind a blank. -/
theorem head_operandText (h : IsLegible i) : ∀ c ∈ i.operandText.toList.head?, c = ' ' := by
  cases h with
  | constant _ => simp [operandText_pushConst]
  | named takes _ => simp [operandText_withName takes]
  | jump takes _ => simp [operandText_jumpTo takes]
  | bare takes => simp [operandText_simple takes]

theorem ofText?_text (h : IsLegible i) : ofText? i.text.toList = some i := by
  have hBlank : ∀ c ∈ i.operandText.toList.head?, (c != ' ') = false := by
    intro c hc
    rw [h.head_operandText c hc]
    rfl
  have hWord : ∀ c ∈ i.op.mnemonic.toList, (c != ' ') = true := by
    intro c hc
    apply bne_iff_ne.mpr
    rintro rfl
    exact i.op.blank_not_mem_mnemonic hc
  -- So the first blank of the text stands between the mnemonic and the operand.
  obtain ⟨hTake, hDrop⟩ := Number.takeWhile_eq_nil_of_head hBlank
  rw [ofText?, text, String.toList_append, List.takeWhile_append_of_pos hWord, hTake,
    List.dropWhile_append_of_pos hWord, hDrop, List.append_nil, Opcode.ofMnemonic?_mnemonic]
  exact h.withOperand?_operandText

theorem lineFeed_not_mem_operandText (h : IsLegible i) : '\n' ∉ i.operandText.toList := by
  cases h with
  | constant number =>
    have hText := Number.lineFeed_not_mem_text (Number.magnitude_le_of_isNaN number)
    simp [operandText_pushConst, hText]
  | named takes inLine => simp [operandText_withName takes, inLine]
  | jump takes target =>
    have hDigits := (Number.IsDigits.toDigits target).lineFeed_not_mem
    simp [operandText_jumpTo takes, hDigits]
  | bare takes => simp [operandText_simple takes]

theorem lineFeed_not_mem_text (h : IsLegible i) : '\n' ∉ i.text.toList := by
  rw [text, String.toList_append, List.mem_append, not_or]
  exact ⟨i.op.lineFeed_not_mem_mnemonic, h.lineFeed_not_mem_operandText⟩

end IsLegible

end Instr

/-! ### Listings -/

namespace Code

open Instr (IsLegible)

/-- Lines are read from any index on. -/
theorem instrsOfLines?_lines {instrs : List Instr} (h : ∀ i ∈ instrs, IsLegible i) (index : Nat) :
    instrsOfLines? index ((instrs.zipIdx index).map fun (i, index) =>
      (Nat.repr index ++ ": " ++ i.text).toList) = some instrs := by
  induction instrs generalizing index with
  | nil => rfl
  | cons i instrs ih =>
    obtain ⟨hFirst, hOthers⟩ := List.forall_mem_cons.mp h
    have hText : (Nat.repr index ++ ": ").toList.isPrefixOf?
        (Nat.repr index ++ ": " ++ i.text).toList = some i.text.toList :=
      List.isPrefixOf?_eq_some_iff_append_eq.mpr String.toList_append.symm
    simp only [List.zipIdx_cons, List.map_cons, instrsOfLines?, hText, Option.bind_eq_bind,
      Option.bind_some, hFirst.ofText?_text, ih hOthers (index + 1)]
    rfl

theorem toList_listing (code : Code) :
    code.listing.toList = (code.lines.map String.toList).flatMap (· ++ ['\n']) := by
  rw [listing, String.toList_join, List.flatMap_map, List.flatMap_map]
  simp only [String.toList_append]
  rfl

theorem lineFeed_not_mem_line {i : Instr} (h : IsLegible i) (index : Nat) :
    '\n' ∉ (Nat.repr index ++ ": " ++ i.text).toList := by
  have hIndex := (Number.IsDigits.toDigits index).lineFeed_not_mem
  simp [Nat.toList_repr, hIndex, h.lineFeed_not_mem_text]

/-- Code whose instructions can be read can be read from its listing. -/
theorem ofListing?_listing {code : Code} (h : ∀ i ∈ code.instrs, IsLegible i) :
    ofListing? code.listing = some code := by
  have hInstrs : ∀ i ∈ code.instrs.toList, IsLegible i := by
    intro i hMem
    exact h i (Array.mem_toList_iff.mp hMem)
  have hInLine : ∀ line ∈ code.lines.map String.toList, '\n' ∉ line := by
    intro line hLine
    obtain ⟨text, hText, rfl⟩ := List.mem_map.mp hLine
    obtain ⟨⟨i, index⟩, hMem, rfl⟩ := List.mem_map.mp hText
    exact lineFeed_not_mem_line (hInstrs i (List.fst_mem_of_mem_zipIdx hMem)) index
  have hRead : instrsOfLines? 0 (code.lines.map String.toList) = some code.instrs.toList := by
    rw [lines, List.map_map]
    exact instrsOfLines?_lines hInstrs 0
  rw [ofListing?, toList_listing, Text.splitLines_flatMap hInLine]
  simp [hRead]

end Code

theorem Token.IsLexeme.lineFeed_not_mem {chars : List Char} (h : IsLexeme .identifier chars) :
    '\n' ∉ chars := by
  cases h with
  | fixed one => cases one
  | name start others _ =>
    intro hMem
    have hName : Text.isNameChar '\n' = true := by
      rcases List.mem_cons.mp hMem with hFirst | hRest
      · rw [hFirst]
        exact Text.isNameChar_of_isNameStart start
      · exact others _ hRest
    rw [Token.separates_lineFeed.1] at hName
    cases hName

/-- What is made of scanned marks can be read. -/
theorem Instr.MadeOf.isLegible {marks : List Mark} {i : Instr} (h : MadeOf marks i)
    (scanned : ∀ m ∈ marks, m.IsScanned) : IsLegible i := by
  cases h with
  | zero => exact .constant (by decide +kernel)
  | constant literal => exact .constant (scanned _ literal).1
  | named takes used => exact .named takes (scanned _ used).lineFeed_not_mem
  | jump takes target => exact .jump takes target
  | bare takes => exact .bare takes

theorem isLegible_of_compile {session : Session} {source : String} {code : Code}
    (h : (session.compile source).1 = .ok code) : ∀ i ∈ code.instrs, i.IsLegible := by
  obtain ⟨p, scope, hCompiles⟩ := Session.Compiles.exists_of_compile h
  rw [hCompiles.compile_eq] at h
  cases h
  obtain ⟨tokens, hScans, hSpells, -⟩ := Program.ofSource_eq_ok_iff.mp hCompiles.read
  intro i hMem
  exact (p.madeOf_assembled i hMem).isLegible (hSpells.isScanned hScans.isLexeme_of_mem)

/-- The listing of what a source compiles to can be read, so sources with the same listing have the
same code. -/
theorem listing_determines_code {session session' : Session} {source source' : String}
    {code code' : Code} (h : (session.compile source).1 = .ok code)
    (h' : (session'.compile source').1 = .ok code') :
    Code.ofListing? code.listing = some code ∧ (code.listing = code'.listing → code = code') := by
  have hRead := Code.ofListing?_listing (isLegible_of_compile h)
  have hRead' := Code.ofListing?_listing (isLegible_of_compile h')
  refine ⟨hRead, fun hListing => ?_⟩
  rw [hListing, hRead'] at hRead
  exact (Option.some.inj hRead).symm

/-- A loop that counts down, and the same loop with a difference for the minus. -/
def countsDown : String := "int n; while (n > -3) n = n + -1;"

def countsDownPlainly : String := "int n; while (n > 0 - 3.0) n = n + (0.0 - 1);"

theorem listing_determines_code_countsDown :
    ∃ code code', (Session.compile {} countsDown).1 = .ok code ∧
      (Session.compile {} countsDownPlainly).1 = .ok code' ∧ code.listing = code'.listing ∧
      Code.ofListing? code.listing = some code ∧ code = code' := by
  obtain ⟨code, hCode⟩ : ∃ code, (Session.compile {} countsDown).1 = .ok code :=
    Session.exists_of_isOk (by decide +kernel)
  obtain ⟨code', hCode'⟩ : ∃ code', (Session.compile {} countsDownPlainly).1 = .ok code' :=
    Session.exists_of_isOk (by decide +kernel)
  have hListings : (Session.compile {} countsDown).1.toOption.map Code.listing =
      (Session.compile {} countsDownPlainly).1.toOption.map Code.listing := by decide +kernel
  rw [hCode, hCode'] at hListings
  have hListing : code.listing = code'.listing := Option.some.inj hListings
  obtain ⟨hRead, hSame⟩ := listing_determines_code hCode hCode'
  exact ⟨code, code', hCode, hCode', hListing, hRead, hSame hListing⟩

end Abacus
