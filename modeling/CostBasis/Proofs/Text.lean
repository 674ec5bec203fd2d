import Mathlib.Data.List.TakeWhile
import CostBasis.Text.Basic

/-!
# Trimmed texts and their bytes

To trim a text is to find the part of it that has no blank at either end and nothing but blanks around
it.  There is one such part, or the text is blank.

A text is read back from its bytes, and a byte below `128` among them is a character of its own.
-/

namespace CostBasis.Text

/-! ## Trimming -/

/-- Nothing but blanks. -/
def Blank (cs : List Char) : Prop := ∀ c ∈ cs, isBlank c = true

instance (cs : List Char) : Decidable (Blank cs) := List.decidableBAll (isBlank · = true) cs

/-- No blank at either end. -/
structure Trimmed (cs : List Char) : Prop where
  head : ∀ c ∈ cs.head?, isBlank c = false
  last : ∀ c ∈ cs.getLast?, isBlank c = false

/-- A text is a trimmed part with blanks around it. -/
structure Trims (cs core : List Char) : Prop where
  trimmed : Trimmed core
  surrounded : ∃ before after, Blank before ∧ Blank after ∧ cs = before ++ core ++ after

theorem Trims.subset {cs core : List Char} (trims : Trims cs core) : core ⊆ cs := by
  obtain ⟨_, before, after, _, _, rfl⟩ := trims
  rw [List.append_assoc]
  exact fun c mem => List.mem_append_right before (List.mem_append_left after mem)

theorem trimmed_of_visible {cs : List Char} (visible : ∀ c ∈ cs, isBlank c = false) : Trimmed cs where
  head c mem := visible c (List.mem_of_mem_head? mem)
  last c mem := visible c (List.mem_of_getLast? mem)

theorem Trimmed.reverse {cs : List Char} (trimmed : Trimmed cs) : Trimmed cs.reverse where
  head c mem := trimmed.last c (by rwa [List.head?_reverse] at mem)
  last c mem := trimmed.head c (by rwa [List.getLast?_reverse] at mem)

theorem Blank.reverse {cs : List Char} (blank : Blank cs) : Blank cs.reverse := fun c mem =>
  blank c (List.mem_reverse.mp mem)

theorem blank_takeWhile (cs : List Char) : Blank (cs.takeWhile isBlank) := fun _ mem =>
  List.mem_takeWhile_imp mem

/-- What is left without leading blanks does not begin with one. -/
theorem isBlank_of_mem_head?_dropWhile {cs : List Char} {c : Char}
    (mem : c ∈ (cs.dropWhile isBlank).head?) : isBlank c = false := by
  have stopped := List.head?_dropWhile_not isBlank cs
  rw [Option.mem_def.mp mem] at stopped
  simpa using stopped

/-- Blanks in front of a part that does not begin with one are dropped, and no more. -/
theorem dropWhile_append {before rest : List Char} (blank : Blank before)
    (begins : ∀ c ∈ rest.head?, isBlank c = false) : (before ++ rest).dropWhile isBlank = rest := by
  rw [List.dropWhile_append_of_pos blank]
  cases rest with
  | nil => rfl
  | cons c rest => exact List.dropWhile_cons_of_neg (by simp [begins c rfl])

theorem trim_eq_nil_iff {cs : List Char} : trim cs = [] ↔ cs.all isBlank = true := by
  rw [trim, List.reverse_eq_nil_iff, List.dropWhile_eq_nil_iff, List.all_eq_true]
  constructor
  · intro blank c mem
    rw [← List.takeWhile_append_dropWhile (p := isBlank) (l := cs), List.mem_append] at mem
    exact mem.elim List.mem_takeWhile_imp fun mem => blank c (List.mem_reverse.mpr mem)
  · exact fun blank c mem => blank c ((List.dropWhile_sublist _).mem (List.mem_reverse.mp mem))

theorem Trims.trim_eq {cs core : List Char} (trims : Trims cs core) : trim cs = core := by
  obtain ⟨trimmed, before, after, blank_before, blank_after, rfl⟩ := trims
  cases core with
  | nil =>
    rw [trim_eq_nil_iff, List.all_eq_true, List.append_nil]
    exact List.forall_mem_append.mpr ⟨blank_before, blank_after⟩
  | cons c core =>
    -- The first character of the part stops the trimming in front, the last one that behind.
    have front : (before ++ (c :: core) ++ after).dropWhile isBlank = c :: core ++ after := by
      rw [List.append_assoc]
      exact dropWhile_append blank_before trimmed.head
    have back : (c :: core ++ after).reverse.dropWhile isBlank = (c :: core).reverse := by
      rw [List.reverse_append]
      exact dropWhile_append blank_after.reverse trimmed.reverse.head
    rw [trim, front, back, List.reverse_reverse]

theorem trims_trim (cs : List Char) : Trims cs (trim cs) := by
  let front := cs.dropWhile isBlank
  have split : front = trim cs ++ (front.reverse.takeWhile isBlank).reverse := by
    rw [trim, ← List.reverse_append, List.takeWhile_append_dropWhile, List.reverse_reverse]
  refine ⟨⟨fun c mem => ?_, fun c mem => ?_⟩, ?_⟩
  · -- The text without leading blanks begins as the trimmed one does.
    suffices begins : c ∈ front.head? from isBlank_of_mem_head?_dropWhile begins
    rw [split, List.head?_append, Option.mem_def.mp mem]
    rfl
  · rw [trim, List.getLast?_reverse] at mem
    exact isBlank_of_mem_head?_dropWhile mem
  · refine ⟨cs.takeWhile isBlank, _, blank_takeWhile cs, (blank_takeWhile front.reverse).reverse, ?_⟩
    rw [List.append_assoc, ← split, List.takeWhile_append_dropWhile]

/-- The trimmed text is the one part of a text that has blanks around it and none at its ends. -/
theorem trim_eq_iff {cs core : List Char} : trim cs = core ↔ Trims cs core :=
  ⟨fun trimmed => trimmed ▸ trims_trim cs, Trims.trim_eq⟩

/-! ## Bytes -/

theorem toList_loop_eq (bytes : ByteArray) (i : Nat) (done : List UInt8) :
    ByteArray.toList.loop bytes i done = done.reverse ++ bytes.data.toList.drop i := by
  fun_induction ByteArray.toList.loop bytes i done with
  | case1 i done more ih =>
    have there : i < bytes.data.toList.length := by simpa using more
    rw [ih, List.drop_eq_getElem_cons (l := bytes.data.toList) there]
    simp [ByteArray.get!, more]
  | case2 i done finished =>
    rw [List.drop_eq_nil_of_le (by simpa using Nat.le_of_not_lt finished), List.append_nil]

theorem toList_eq (bytes : ByteArray) : bytes.toList = bytes.data.toList := by
  rw [ByteArray.toList, toList_loop_eq, List.reverse_nil, List.nil_append, List.drop_zero]

/-- A text is read back from its bytes. -/
theorem decode?_encode (s : String) : decode? (encode s) = some s := by
  have bytes : (⟨(encode s).toArray⟩ : ByteArray) = s.toByteArray := by
    rw [encode, toList_eq, Array.toArray_toList, String.toUTF8_eq_toByteArray]
  rw [decode?, bytes, String.fromUTF8?, dif_pos s.isValidUTF8]
  rfl

theorem encode_append (s t : String) : encode (s ++ t) = encode s ++ encode t := by
  simp only [encode, String.toUTF8_eq_toByteArray, String.toByteArray_append, toList_eq,
    ByteArray.toList_data_append]

theorem encode_eq (s : String) : encode s = s.toList.flatMap String.utf8EncodeChar := by
  conv => lhs; rw [← String.ofList_toList (s := s)]
  rw [encode, String.toUTF8_eq_toByteArray, toList_eq]
  exact List.toList_data_toByteArray

theorem toNat_of_mem_utf8EncodeChar {c : Char} {b : UInt8} (ascii : b < 128)
    (mem : b ∈ String.utf8EncodeChar c) : c.toNat = b.toNat := by
  have small : b.toNat < 128 := ascii
  have byte {n : Nat} (same : b = UInt8.ofNat n) : b.toNat = n % 256 := by
    rw [same, UInt8.toNat_ofNat']
  have code : c.toNat = c.val.toNat := rfl
  -- The bytes of the other characters are all `128` at least.
  simp only [String.utf8EncodeChar] at mem
  split at mem
  next =>
    have := byte (List.mem_singleton.mp mem)
    omega
  split at mem
  next =>
    simp only [List.mem_cons, List.not_mem_nil, or_false] at mem
    rcases mem with mem | mem <;> have := byte mem <;> omega
  split at mem
  next =>
    simp only [List.mem_cons, List.not_mem_nil, or_false] at mem
    rcases mem with mem | mem | mem <;> have := byte mem <;> omega
  next =>
    simp only [List.mem_cons, List.not_mem_nil, or_false] at mem
    rcases mem with mem | mem | mem | mem <;> have := byte mem <;> omega

/-- A byte below `128` is a character of its own. -/
theorem exists_of_mem_encode {b : UInt8} (ascii : b < 128) {s : String} (mem : b ∈ encode s) :
    ∃ c ∈ s.toList, c.toNat = b.toNat := by
  rw [encode_eq, List.mem_flatMap] at mem
  obtain ⟨c, c_mem, mem⟩ := mem
  exact ⟨c, c_mem, toNat_of_mem_utf8EncodeChar ascii mem⟩

end CostBasis.Text
