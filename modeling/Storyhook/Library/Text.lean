import Mathlib.Data.List.Basic
import Mathlib.Data.List.Induction
import Mathlib.Tactic.Common

/-! The operations on character sequences that the standard string library documents. -/

namespace Storyhook.Library.Text

def splitOnce (separator : Char) : List Char → Option (List Char × List Char)
  | [] => none
  | head :: tail =>
      if head = separator then some ([], tail)
      else (splitOnce separator tail).map fun parts => (head :: parts.1, parts.2)

theorem splitOnce_eq_some (separator : Char) (text before after : List Char) :
    splitOnce separator text = some (before, after) ↔
      text = before ++ separator :: after ∧ separator ∉ before := by
  induction text generalizing before with
  | nil => simp [splitOnce]
  | cons head tail ih =>
      by_cases same : head = separator
      · subst same
        cases before with
        | nil => simp [splitOnce, eq_comm]
        | cons first rest => simp [splitOnce]; grind
      · cases before with
        | nil => simp [splitOnce, same]
        | cons first rest =>
            simp only [splitOnce, if_neg same, Option.map_eq_some_iff, Prod.exists, Prod.mk.injEq,
              List.cons.injEq, List.cons_append, List.mem_cons, not_or]
            constructor
            · rintro ⟨front, back, found, ⟨rfl, rfl⟩, rfl⟩
              have split := (ih front).mp found
              exact ⟨⟨rfl, split.1⟩, Ne.symm same, split.2⟩
            · rintro ⟨⟨rfl, shape⟩, -, absent⟩
              exact ⟨rest, after, (ih rest).mpr ⟨shape, absent⟩, ⟨rfl, rfl⟩, rfl⟩

theorem splitOnce_eq_none (separator : Char) (text : List Char) :
    splitOnce separator text = none ↔ separator ∉ text := by
  induction text with
  | nil => simp [splitOnce]
  | cons head tail ih =>
      by_cases same : head = separator
      · simp [splitOnce, same]
      · simp [splitOnce, same, ih, Ne.symm same]

def splitOnceStr (separator : List Char) : List Char → Option (List Char × List Char)
  | [] => (separator.isPrefixOf? []).map fun rest => ([], rest)
  | head :: tail =>
      match separator.isPrefixOf? (head :: tail) with
      | some rest => some ([], rest)
      | none => (splitOnceStr separator tail).map fun parts => (head :: parts.1, parts.2)

def FirstAt (separator text before after : List Char) : Prop :=
  text = before ++ separator ++ after ∧
    ∀ front back, text = front ++ separator ++ back → before.length ≤ front.length

def rsplitOnce (separator : Char) (text : List Char) : Option (List Char × List Char) :=
  (splitOnce separator text.reverse).map fun parts => (parts.2.reverse, parts.1.reverse)

theorem rsplitOnce_eq_some (separator : Char) (text before after : List Char) :
    rsplitOnce separator text = some (before, after) ↔
      text = before ++ separator :: after ∧ separator ∉ after := by
  simp only [rsplitOnce, Option.map_eq_some_iff, Prod.exists, Prod.mk.injEq]
  constructor
  · rintro ⟨front, back, found, rfl, rfl⟩
    have split := (splitOnce_eq_some separator text.reverse front back).mp found
    refine ⟨?_, by simpa using split.2⟩
    rw [← List.reverse_reverse text, split.1]
    simp
  · rintro ⟨rfl, absent⟩
    refine ⟨after.reverse, before.reverse, ?_, by simp, by simp⟩
    exact (splitOnce_eq_some separator _ _ _).mpr ⟨by simp, by simpa using absent⟩

theorem rsplitOnce_eq_none (separator : Char) (text : List Char) :
    rsplitOnce separator text = none ↔ separator ∉ text := by
  simp [rsplitOnce, splitOnce_eq_none]

theorem isPrefixOf?_eq_some (front text rest : List Char) :
    front.isPrefixOf? text = some rest ↔ text = front ++ rest := by
  induction front generalizing text with
  | nil => simp [List.isPrefixOf?, eq_comm]
  | cons head tail ih =>
      cases text with
      | nil => simp [List.isPrefixOf?]
      | cons first others =>
          by_cases same : head = first
          · simp [List.isPrefixOf?, same, ih]
          · simp [List.isPrefixOf?, same, Ne.symm same]

theorem isPrefixOf?_eq_none (front text : List Char) :
    front.isPrefixOf? text = none ↔ ¬front <+: text := by
  rw [Option.eq_none_iff_forall_not_mem]
  simp only [Option.mem_def, isPrefixOf?_eq_some]
  exact ⟨fun none ⟨rest, split⟩ => none rest split.symm, fun none rest split =>
    none ⟨rest, split.symm⟩⟩

theorem FirstAt.here (separator text after : List Char) (split : text = separator ++ after) :
    FirstAt separator text [] after :=
  ⟨split, fun _ _ _ => Nat.zero_le _⟩

theorem firstAt_cons (separator tail front after : List Char) (head : Char)
    (absent : ¬separator <+: head :: tail) :
    FirstAt separator (head :: tail) (head :: front) after ↔
      FirstAt separator tail front after := by
  simp only [FirstAt, List.cons_append, List.cons.injEq, true_and, List.length_cons]
  refine and_congr_right fun _ => ⟨fun first shorter back split => ?_,
    fun first shorter back split => ?_⟩
  · have within := first (head :: shorter) back (by rw [split]; rfl)
    exact Nat.le_of_succ_le_succ within
  · cases shorter with
    | nil => exact absurd ⟨back, split.symm⟩ absent
    | cons _ shorter =>
        injection split with _ split
        exact Nat.succ_le_succ (first shorter back split)

theorem splitOnceStr_eq_some (separator text before after : List Char) :
    splitOnceStr separator text = some (before, after) ↔ FirstAt separator text before after := by
  induction text generalizing before with
  | nil =>
      simp only [splitOnceStr, Option.map_eq_some_iff, isPrefixOf?_eq_some, Prod.mk.injEq]
      constructor
      · rintro ⟨rest, split, rfl, rfl⟩
        exact FirstAt.here separator [] rest split
      · rintro ⟨split, -⟩
        obtain ⟨front, rfl⟩ := List.append_eq_nil_iff.mp split.symm
        obtain ⟨rfl, rfl⟩ := List.append_eq_nil_iff.mp front
        exact ⟨[], rfl, rfl, rfl⟩
  | cons head tail further =>
      rw [splitOnceStr]
      cases found : separator.isPrefixOf? (head :: tail) with
      | some rest =>
          have here := (isPrefixOf?_eq_some separator _ rest).mp found
          simp only [Option.some.injEq, Prod.mk.injEq]
          constructor
          · rintro ⟨rfl, rfl⟩
            exact FirstAt.here separator _ rest here
          · rintro ⟨split, first⟩
            have short := first [] rest here
            obtain rfl := List.length_eq_zero_iff.mp (Nat.le_zero.mp short)
            exact ⟨rfl, List.append_cancel_left (here.symm.trans split)⟩
      | none =>
          have absent := (isPrefixOf?_eq_none separator _).mp found
          simp only [Option.map_eq_some_iff, Prod.exists, Prod.mk.injEq]
          constructor
          · rintro ⟨front, back, deeper, rfl, rfl⟩
            exact (firstAt_cons separator tail front back head absent).mpr
              ((further front).mp deeper)
          · intro first
            cases before with
            | nil => exact absurd ⟨after, first.1.symm⟩ absent
            | cons other front =>
                obtain rfl : head = other := by
                  have split := first.1
                  injection split
                have deeper := (firstAt_cons separator tail front after head absent).mp first
                exact ⟨front, after, (further front).mpr deeper, rfl, rfl⟩

theorem splitOnceStr_eq_none (separator text : List Char) :
    splitOnceStr separator text = none ↔ ¬separator <:+: text := by
  induction text with
  | nil => simp [splitOnceStr, isPrefixOf?_eq_none]
  | cons head tail further =>
      rw [splitOnceStr, List.infix_cons_iff, not_or, ← isPrefixOf?_eq_none, ← further]
      cases separator.isPrefixOf? (head :: tail) <;> simp

theorem isSuffixOf?_eq_some (back text rest : List Char) :
    back.isSuffixOf? text = some rest ↔ text = rest ++ back := by
  simp only [List.isSuffixOf?, Option.map_eq_some_iff, isPrefixOf?_eq_some]
  constructor
  · rintro ⟨reversed, split, rfl⟩
    rw [← List.reverse_reverse text, split]
    simp
  · rintro rfl
    exact ⟨rest.reverse, by simp, by simp⟩

def stripSuffix (back text : List Char) : List Char := (back.isSuffixOf? text).getD text

theorem stripSuffix_append (back rest : List Char) : stripSuffix back (rest ++ back) = rest := by
  rw [stripSuffix, (isSuffixOf?_eq_some back _ rest).mpr rfl]
  rfl

theorem stripSuffix_eq_self (back text : List Char) (absent : ¬ back <:+ text) :
    stripSuffix back text = text := by
  cases found : back.isSuffixOf? text with
  | none => rw [stripSuffix, found]; rfl
  | some rest =>
      have split := (isSuffixOf?_eq_some back text rest).mp found
      exact absurd ⟨rest, split.symm⟩ absent

theorem suffix_last_piece (separator : Char) (front last back : List Char)
    (absent : separator ∉ back) :
    back <:+ front ++ separator :: last ↔ back <:+ last := by
  have tail : last <:+ front ++ separator :: last := ⟨front ++ [separator], by simp⟩
  constructor
  · intro ends
    by_cases fits : back.length ≤ last.length
    · exact List.suffix_of_suffix_length_le ends tail fits
    · have longer : separator :: last <:+ back :=
        List.suffix_of_suffix_length_le ⟨front, rfl⟩ ends (by simp; omega)
      exact absurd (longer.subset List.mem_cons_self) absent
  · intro ends
    exact ends.trans tail

theorem stripSuffix_last_piece (separator : Char) (front last back : List Char)
    (absent : separator ∉ back) :
    stripSuffix back (front ++ separator :: last) =
      front ++ separator :: stripSuffix back last := by
  by_cases ends : back <:+ last
  · obtain ⟨rest, rfl⟩ := ends
    rw [stripSuffix_append, ← List.cons_append, ← List.append_assoc, stripSuffix_append]
  · rw [stripSuffix_eq_self back last ends, stripSuffix_eq_self]
    rwa [suffix_last_piece separator front last back absent]

theorem not_mem_of_mem_splitOn {α : Type} [DecidableEq α] (separator : α) (text piece : List α)
    (member : piece ∈ text.splitOn separator) : separator ∉ piece := by
  induction text generalizing piece with
  | nil => simp_all
  | cons head tail ih =>
      rw [List.splitOn_cons_eq_if_modifyHead] at member
      split at member
      · rcases List.mem_cons.mp member with rfl | later
        · exact List.not_mem_nil
        · exact ih piece later
      · next differs =>
          obtain ⟨first, others, pieces⟩ :=
            List.exists_cons_of_ne_nil (List.splitOn_ne_nil separator tail)
          rw [pieces] at ih member
          rcases List.mem_cons.mp member with rfl | later
          · have clear := ih first List.mem_cons_self
            simp only [List.mem_cons, not_or]
            exact ⟨fun same => differs (by simp [same]), clear⟩
          · exact ih piece (List.mem_cons_of_mem _ later)

/-- The characters with the Unicode property `White_Space`. -/
def isWhitespace (character : Char) : Bool :=
  let code := character.toNat
  (0x9 ≤ code && code ≤ 0xD) || code == 0x20 || code == 0x85 || code == 0xA0 ||
    code == 0x1680 || (0x2000 ≤ code && code ≤ 0x200A) || code == 0x2028 || code == 0x2029 ||
    code == 0x202F || code == 0x205F || code == 0x3000

def trim (text : List Char) : List Char :=
  ((text.dropWhile isWhitespace).reverse.dropWhile isWhitespace).reverse

theorem trim_split (text : List Char) : ∃ lead trail, text = lead ++ trim text ++ trail ∧
    ∀ c ∈ lead ++ trail, isWhitespace c = true := by
  refine ⟨text.takeWhile isWhitespace,
    ((text.dropWhile isWhitespace).reverse.takeWhile isWhitespace).reverse, ?_, ?_⟩
  · rw [trim, List.append_assoc, ← List.reverse_append, List.takeWhile_append_dropWhile,
      List.reverse_reverse, List.takeWhile_append_dropWhile]
  · intro c member
    rcases List.mem_append.mp member with before | after
    · exact List.all_eq_true.mp List.all_takeWhile c before
    · exact List.all_eq_true.mp List.all_takeWhile c (List.mem_reverse.mp after)

theorem isWhitespace_of_trim_nil (text : List Char) (blank : trim text = []) :
    ∀ c ∈ text, isWhitespace c = true := by
  obtain ⟨lead, trail, split, space⟩ := trim_split text
  rw [blank, List.append_nil] at split
  exact split ▸ space

theorem trim_getLast? (text : List Char) :
    ∀ c ∈ (trim text).getLast?, isWhitespace c = false := by
  intro c last
  rw [trim, List.getLast?_reverse] at last
  have stopped := List.head?_dropWhile_not isWhitespace (text.dropWhile isWhitespace).reverse
  rw [Option.mem_def.mp last] at stopped
  simpa using stopped

theorem trim_rest_filled (text mark rest : List Char) (split : trim text = mark ++ rest)
    (ends : ∃ c ∈ mark.getLast?, isWhitespace c = true) : trim rest ≠ [] := by
  intro blank
  obtain ⟨c, last, white⟩ := ends
  have solid := trim_getLast? text
  rw [split] at solid
  cases found : rest.getLast? with
  | none =>
      rw [List.getLast?_eq_none_iff.mp found, List.append_nil] at solid
      rw [solid c last] at white
      cases white
  | some final =>
      rw [List.getLast?_append, found] at solid
      have space := isWhitespace_of_trim_nil rest blank final (List.mem_of_getLast? found)
      rw [solid final rfl] at space
      cases space

theorem dropWhile_padded (lead rest : List Char) (space : ∀ c ∈ lead, isWhitespace c = true)
    (start : ∀ c ∈ rest.head?, isWhitespace c = false) :
    (lead ++ rest).dropWhile isWhitespace = rest := by
  rw [List.dropWhile_append_of_pos space]
  cases rest with
  | nil => rfl
  | cons first others => exact List.dropWhile_cons_of_neg (by simp [start first rfl])

theorem trim_padded (lead core trail : List Char)
    (space : ∀ c ∈ lead ++ trail, isWhitespace c = true) (filled : core ≠ [])
    (solid : ∀ c ∈ core, isWhitespace c = false) : trim (lead ++ core ++ trail) = core := by
  have before := fun c member => space c (List.mem_append_left _ member)
  have after := fun c member => space c (List.mem_append_right _ member)
  rw [trim, List.append_assoc, dropWhile_padded lead _ before, List.reverse_append,
    dropWhile_padded _ _ (fun c member => after c (List.mem_reverse.mp member)),
    List.reverse_reverse]
  · intro c last
    exact solid c (List.mem_reverse.mp (List.mem_of_mem_head? last))
  · intro c first
    rw [List.head?_append, List.head?_eq_some_head filled] at first
    exact solid c (List.mem_of_head? (List.head?_eq_some_head filled ▸ first))

/-- The text with its ASCII capitals lowered and every other character kept. -/
def toAsciiLowercase (text : List Char) : List Char := text.map Char.toLower

theorem toLower_cases (character : Char) :
    character.toLower = character ∨
      (65 ≤ character.toNat ∧ character.toNat ≤ 90 ∧
        character.toLower.toNat = character.toNat + 32) := by
  unfold Char.toLower
  split
  · next capital =>
      right
      have above : 65 ≤ character.val.toNat := capital.1
      have below : character.val.toNat ≤ 90 := capital.2
      refine ⟨above, below, ?_⟩
      show (character.val + 32).toNat = character.val.toNat + 32
      rw [UInt32.toNat_add]
      show (character.val.toNat + 32) % 4294967296 = character.val.toNat + 32
      omega
  · exact Or.inl rfl

theorem toLower_toLower (character : Char) :
    character.toLower.toLower = character.toLower := by
  rcases toLower_cases character.toLower with same | ⟨above, below, -⟩
  · exact same
  · rcases toLower_cases character with kept | ⟨lower, upper, raised⟩
    · rw [kept, kept]
    · omega

theorem toLower_eq_iff (character caseless : Char) (notSmall : caseless.toNat < 97)
    (notCapital : caseless.toNat < 65 ∨ 90 < caseless.toNat) :
    character.toLower = caseless ↔ character = caseless := by
  rcases toLower_cases character with same | ⟨above, below, raised⟩
  · rw [same]
  · constructor <;> rintro rfl <;> omega

theorem mem_toAsciiLowercase (caseless : Char) (text : List Char)
    (notSmall : caseless.toNat < 97) (notCapital : caseless.toNat < 65 ∨ 90 < caseless.toNat) :
    caseless ∈ toAsciiLowercase text ↔ caseless ∈ text := by
  simp [toAsciiLowercase, toLower_eq_iff _ caseless notSmall notCapital]

theorem intercalate_concat (separator : Char) (front : List (List Char)) (last : List Char) :
    [separator].intercalate (front ++ [last]) =
      front.flatMap (fun piece => piece ++ [separator]) ++ last := by
  induction front with
  | nil => simp
  | cons piece rest ih =>
      rw [List.cons_append, List.intercalate_cons_of_ne_nil (by simp), ih]
      simp

theorem stripSuffix_intercalate (separator : Char) (back : List Char)
    (absent : separator ∉ back) (front : List (List Char)) (last : List Char) :
    stripSuffix back ([separator].intercalate (front ++ [last])) =
      [separator].intercalate (front ++ [stripSuffix back last]) := by
  rw [intercalate_concat, intercalate_concat]
  cases front using List.reverseRecOn with
  | nil => simp
  | append_singleton earlier piece =>
      have strip := stripSuffix_last_piece separator
        (earlier.flatMap (fun piece => piece ++ [separator]) ++ piece) last back absent
      simpa using strip

theorem toAsciiLowercase_intercalate (separator : Char) (caseless : separator.toLower = separator)
    (pieces : List (List Char)) :
    toAsciiLowercase ([separator].intercalate pieces) =
      [separator].intercalate (pieces.map toAsciiLowercase) := by
  cases pieces using List.reverseRecOn with
  | nil => rfl
  | append_singleton front last =>
      rw [List.map_append, List.map_singleton, intercalate_concat, intercalate_concat]
      simp [toAsciiLowercase, List.map_flatMap, List.flatMap_map, caseless]

theorem splitOn_append (separator : Char) (text back last : List Char)
    (front : List (List Char)) (pieces : text.splitOn separator = front ++ [last])
    (absent : separator ∉ back) :
    (text ++ back).splitOn separator = front ++ [last ++ back] := by
  have clear (piece : List Char) (member : piece ∈ front ++ [last]) : separator ∉ piece :=
    not_mem_of_mem_splitOn separator text piece (pieces ▸ member)
  have rebuilt : text ++ back = [separator].intercalate (front ++ [last ++ back]) := by
    rw [intercalate_concat, ← List.append_assoc, ← intercalate_concat, ← pieces,
      List.intercalate_splitOn]
  rw [rebuilt]
  apply List.splitOn_intercalate
  · intro piece member
    rcases List.mem_append.mp member with earlier | final
    · exact clear piece (List.mem_append_left _ earlier)
    · rw [List.mem_singleton.mp final, List.mem_append, not_or]
      exact ⟨clear last (by simp), absent⟩
  · simp

theorem intercalate_injective (separator : Char) (left right : List (List Char))
    (leftClear : ∀ piece ∈ left, separator ∉ piece) (leftFilled : [] ∉ left)
    (rightClear : ∀ piece ∈ right, separator ∉ piece) (rightFilled : [] ∉ right)
    (same : [separator].intercalate left = [separator].intercalate right) : left = right := by
  have alone (pieces : List (List Char)) (clear : ∀ piece ∈ pieces, separator ∉ piece)
      (filled : [] ∉ pieces) (blank : [separator].intercalate pieces = []) : pieces = [] := by
    by_contra some
    have split := List.splitOn_intercalate separator clear some
    rw [blank, List.splitOn_nil] at split
    exact filled (split ▸ List.mem_singleton_self [])
  by_cases none : left = []
  · subst none
    rw [List.intercalate_nil] at same
    exact (alone right rightClear rightFilled same.symm).symm
  · by_cases other : right = []
    · subst other
      rw [List.intercalate_nil] at same
      exact alone left leftClear leftFilled same
    · rw [← List.splitOn_intercalate separator leftClear none, same,
        List.splitOn_intercalate separator rightClear other]

end Storyhook.Library.Text
