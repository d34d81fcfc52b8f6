/-
  Pagemark.Proofs.Url.Address — IPv4 and IPv6 addresses read back from their text.

  The text of an IPv4 address is its four bytes in decimal; a decimal number without a leading
  zero is read in base ten, whatever bases the other parts are in. The text of an IPv6 address
  leaves the first of its longest runs of zeros out, and the double colon in its place tells how
  many there were, because there are eight groups in all.

  Proved: `ipv4?_text`, `ipv6?_text` — an address is read back from its text; `ipv4?_lt`,
  `ipv6Address_of_ipv6?` — and whatever is read as one is an address.
-/

import Mathlib.Algebra.Group.Nat.Defs
import Pagemark.Proofs.Text.Cut
import Pagemark.Proofs.Text.Numeral
import Pagemark.Proofs.Text.Percent
import Pagemark.Url.Host

namespace Pagemark.Url.Host

open Text

/-! ## IPv4 -/

theorem dot_not_mem_decimal (n : Nat) : ∀ c ∈ (decimal n).toList, (c == '.') = false := by
  intro c hc
  rw [beq_eq_false_iff_ne]
  rintro rfl
  exact not_mem_decimal (by decide) n hc

/-- Only a leading zero names a base. -/
theorem ipv4Part?_of_head {c : Char} (hc : c ≠ '0') (cs : List Char) :
    ipv4Part? (c :: cs) = (c :: cs).foldlM (fun n c => (digit? 10 c).map (n * 10 + ·)) 0 := by
  unfold ipv4Part?
  split
  rename_i base digits h
  split at h
  · rename_i e; exact absurd (List.cons.inj e).1 hc
  · rename_i e; exact absurd (List.cons.inj e).1 hc
  · rename_i e; exact absurd (List.cons.inj e).1 hc
  · cases h; rfl

theorem ipv4Part?_decimal (n : Nat) : ipv4Part? (decimal n).toList = some n := by
  have hvalue := foldlM_toDigits (by decide : 1 < 10) (by decide) n
  rw [decimal, String.toList_ofList]
  by_cases hn : n = 0
  · subst hn; rfl
  have hhead := head_toDigits_ne_zero (Nat.pos_of_ne_zero hn)
  cases hcs : Nat.toDigits 10 n with
  | nil => exact absurd hcs Nat.toDigits_ne_nil
  | cons c cs =>
    rw [hcs] at hhead hvalue
    rw [ipv4Part?_of_head (hhead c rfl), hvalue]

/-- Numbers in decimal with dots between them. -/
def dotted (numbers : List Nat) : List Char := joined '.' (numbers.map fun n => (decimal n).toList)

theorem labels_dotted {numbers : List Nat} (hne : numbers ≠ []) :
    labels (dotted numbers) = numbers.map fun n => (decimal n).toList := by
  have apart : pieces (· == '.') (dotted numbers) = numbers.map fun n => (decimal n).toList := by
    refine pieces_joined rfl (by simpa using hne) ?_
    intro piece hpiece
    obtain ⟨n, -, rfl⟩ := List.mem_map.mp hpiece
    exact dot_not_mem_decimal n
  have filled : ((numbers.map fun n => (decimal n).toList).getLast? == some []) = false := by
    rw [beq_eq_false_iff_ne]
    intro e
    obtain ⟨n, -, hn⟩ := List.mem_map.mp (List.mem_of_getLast? e)
    exact decimal_ne_nil n hn
  unfold labels
  simp only [apart, filled, Bool.and_false, Bool.false_eq_true, if_false]

theorem endsInNumber_dotted {numbers : List Nat} (hne : numbers ≠ []) : endsInNumber (dotted numbers) = true := by
  unfold endsInNumber
  rw [labels_dotted hne, List.getLast?_map, List.getLast?_eq_some_getLast hne]
  simp only [Option.map_some, ipv4Part?_decimal, Option.isSome_some, Bool.or_true]

theorem ipv4?_dotted {numbers : List Nat} (hne : numbers ≠ []) :
    ipv4? (dotted numbers) = if numbers.length ≤ 4 then ipv4Value? 4 numbers else none := by
  have read : ∀ numbers : List Nat, (numbers.map fun n => (decimal n).toList).mapM ipv4Part? = some numbers := by
    intro numbers
    induction numbers with
    | nil => rfl
    | cons n numbers ih => simp [ipv4Part?_decimal, ih]
  unfold ipv4?
  rw [labels_dotted hne, read]
  rfl

/-- The bytes of an IPv4 address. -/
def ipv4Bytes (address : Nat) : List Nat := [16777216, 65536, 256, 1].map fun place => address / place % 256

theorem toList_ipv4Text (address : Nat) : (ipv4Text address).toList = dotted (ipv4Bytes address) := by
  show ((String.singleton '.').intercalate _).toList = _
  rw [toList_intercalate_singleton]
  rfl

theorem ipv4Text_ne_nil (address : Nat) : (ipv4Text address).toList ≠ [] := by
  rw [toList_ipv4Text]
  exact joined_ne_nil (decimal_ne_nil _) _

theorem ipv4Value?_ipv4Bytes {address : Nat} (h : address < 256 ^ 4) :
    ipv4Value? 4 (ipv4Bytes address) = some address := by
  have places : Nat.pow 256 3 = 16777216 ∧ Nat.pow 256 2 = 65536 ∧ Nat.pow 256 1 = 256 := ⟨rfl, rfl, rfl⟩
  simp only [ipv4Bytes, List.map_cons, List.map_nil, ipv4Value?, Nat.mod_lt _ (by decide : 0 < 256), if_true,
    Option.map_some, places, Option.some.injEq]
  omega

/-- An IPv4 address is read back from its text. -/
theorem ipv4?_text {address : Nat} (h : address < 256 ^ 4) : ipv4? (ipv4Text address).toList = some address := by
  have hne : ipv4Bytes address ≠ [] := List.cons_ne_nil _ _
  rw [toList_ipv4Text, ipv4?_dotted hne]
  exact ipv4Value?_ipv4Bytes h

theorem ipv4Value?_lt {places : Nat} {parts : List Nat} {value : Nat} (h : ipv4Value? places parts = some value) :
    value < 256 ^ places := by
  fun_induction ipv4Value? places parts generalizing value with
  | case1 => cases h
  | case2 places last hlt => cases h; exact hlt
  | case3 => cases h
  | case4 => cases h
  | case5 places part more _ hpart ih =>
    obtain ⟨rest, hrest, rfl⟩ := Option.map_eq_some_iff.mp h
    have hrest := ih hrest
    calc part * 256 ^ places + rest < part * 256 ^ places + 256 ^ places := by omega
      _ = (part + 1) * 256 ^ places := (Nat.succ_mul part _).symm
      _ ≤ 256 * 256 ^ places := Nat.mul_le_mul_right _ hpart
      _ = 256 ^ (places + 1) := (Nat.pow_succ').symm
  | case6 => cases h

theorem ipv4?_lt {cs : List Char} {address : Nat} (h : ipv4? cs = some address) : address < 256 ^ 4 := by
  unfold ipv4? at h
  obtain ⟨parts, -, h⟩ := Option.bind_eq_some_iff.mp h
  split at h
  · exact ipv4Value?_lt h
  · cases h

/-! ## Groups of an IPv6 address -/

theorem ipv6Group?_hexadecimal {g : Nat} (h : g < 65536) : ipv6Group? (hexadecimal g).toList = some g := by
  have hlength : (Nat.toDigits 16 g).length ≤ 4 := (Nat.length_toDigits_le_iff (by decide) (by decide)).mpr h
  have hne : (Nat.toDigits 16 g).isEmpty = false := List.isEmpty_eq_false_iff.mpr Nat.toDigits_ne_nil
  rw [hexadecimal, String.toList_ofList]
  unfold ipv6Group?
  rw [if_neg (by simpa [hne] using hlength), foldlM_toDigits (by decide) (by decide)]

/-- The digits of each group. -/
def spelled (groups : List Nat) : List (List Char) := groups.map fun g => (hexadecimal g).toList

theorem spelled_spec {groups : List Nat} {piece : List Char} (h : piece ∈ spelled groups) :
    piece ≠ [] ∧ ∀ c ∈ piece, c.isAlphanum = true := by
  obtain ⟨g, -, rfl⟩ := List.mem_map.mp h
  exact ⟨hexadecimal_ne_nil g, fun c hc => isAlphanum_of_mem_hexadecimal hc⟩

theorem ipv6Groups?_spelled {groups : List Nat} (h : ∀ g ∈ groups, g < 65536) (dotted : Bool) :
    ipv6Groups? dotted (spelled groups) = some groups := by
  induction groups with
  | nil => rfl
  | cons g groups ih =>
    obtain ⟨hg, hgroups⟩ := List.forall_mem_cons.mp h
    have ih := ih hgroups
    cases groups with
    | nil =>
      have plain : (hexadecimal g).toList.contains '.' = false := by
        rw [List.contains_eq_mem, decide_eq_false_iff_not]
        intro hc
        exact ne_of_isAlphanum (isAlphanum_of_mem_hexadecimal hc) (by decide) rfl
      simp only [spelled, List.map_cons, List.map_nil, ipv6Groups?, plain, Bool.and_false, Bool.false_eq_true, if_false,
        ipv6Group?_hexadecimal hg, Option.map_some]
    | cons next more =>
      simp only [spelled, List.map_cons] at ih ⊢
      simp only [ipv6Groups?, ipv6Group?_hexadecimal hg]
      rw [ih]
      rfl

theorem toList_groupsText (groups : List Nat) : (groupsText groups).toList = joined ':' (spelled groups) := by
  show ((String.singleton ':').intercalate _).toList = _
  rw [toList_intercalate_singleton, List.map_map]
  rfl

theorem colonPieces_joined_spelled (groups : List Nat) :
    colonPieces (joined ':' (spelled groups)) = spelled groups := by
  cases groups with
  | nil => rfl
  | cons g groups =>
    have hne : spelled (g :: groups) ≠ [] := List.cons_ne_nil _ _
    have filled : (joined ':' (spelled (g :: groups))).isEmpty = false := by
      rw [List.isEmpty_eq_false_iff]
      exact joined_ne_nil (hexadecimal_ne_nil g) _
    unfold colonPieces
    rw [filled]
    refine pieces_joined rfl hne ?_
    intro piece hpiece c hc
    simpa using ne_of_isAlphanum ((spelled_spec hpiece).2 c hc) (by decide : ':'.isAlphanum = false)

/-! ## The double colon -/

theorem cutDoubleColon_append {piece : List Char} (h : ∀ c ∈ piece, c.isAlphanum = true) (cs : List Char) :
    cutDoubleColon (piece ++ cs) = (piece ++ (cutDoubleColon cs).1, (cutDoubleColon cs).2) := by
  induction piece with
  | nil => rfl
  | cons c piece ih =>
    obtain ⟨hc, hpiece⟩ := List.forall_mem_cons.mp h
    have hcolon : c ≠ ':' := ne_of_isAlphanum hc (by decide)
    rw [List.cons_append, cutDoubleColon, ih hpiece]
    · rfl
    · rintro rest rfl -
      exact hcolon rfl

/-- No double colon stands among the groups, nor begins there. -/
theorem cutDoubleColon_spelled (groups : List Nat) (cs : List Char) :
    cutDoubleColon (joined ':' (spelled groups) ++ cs)
      = (joined ':' (spelled groups) ++ (cutDoubleColon cs).1, (cutDoubleColon cs).2) := by
  induction groups with
  | nil => rfl
  | cons g groups ih =>
    have first := cutDoubleColon_append fun c hc => isAlphanum_of_mem_hexadecimal (n := g) hc
    cases groups with
    | nil => exact first cs
    | cons next more =>
      -- The next group begins with a digit, so that the colon in front of it stands alone.
      obtain ⟨d, rest, hrest, hd⟩ : ∃ d rest, joined ':' (spelled (next :: more)) = d :: rest ∧ d ≠ ':' := by
        obtain ⟨d, ds, hds⟩ := List.exists_cons_of_ne_nil (hexadecimal_ne_nil next)
        have hd : d.isAlphanum = true := isAlphanum_of_mem_hexadecimal (by rw [hds]; exact List.mem_cons_self)
        obtain ⟨rest, hrest⟩ : ∃ rest, joined ':' ((d :: ds) :: spelled more) = d :: rest := by
          cases more with
          | nil => exact ⟨_, rfl⟩
          | cons _ _ => exact ⟨_, rfl⟩
        refine ⟨d, rest, ?_, ne_of_isAlphanum hd (by decide)⟩
        rw [← hrest, ← hds]
        rfl
      have lone : cutDoubleColon (':' :: d :: (rest ++ cs))
          = (':' :: (cutDoubleColon (d :: (rest ++ cs))).1, (cutDoubleColon (d :: (rest ++ cs))).2) := by
        rw [cutDoubleColon]
        rintro _ - e
        exact hd (List.cons.inj e).1
      have split : joined ':' (spelled (g :: next :: more)) = (hexadecimal g).toList ++ ':' :: d :: rest := by
        rw [← hrest]
        rfl
      rw [hrest, List.cons_append] at ih
      rw [split, List.append_assoc, first, List.cons_append, List.cons_append, lone, ih]
      simp

/-! ## The zeros that are left out -/

theorem zeros_of_le_leadingZeros {n : Nat} {groups : List Nat} (h : n ≤ leadingZeros groups) :
    List.replicate n 0 ++ groups.drop n = groups := by
  have hrun := List.prefix_iff_eq_take.mp (List.takeWhile_prefix (· == 0) (l := groups))
  have hzeros : groups.take n = List.replicate n 0 := by
    have hfront : groups.take n = (groups.takeWhile (· == 0)).take n := by
      rw [hrun, List.take_take]
      exact congrArg (List.take · groups) (Nat.min_eq_left h).symm
    rw [hfront, List.eq_replicate_iff, List.length_take]
    refine ⟨Nat.min_eq_left h, fun g hg => ?_⟩
    simpa using List.all_eq_true.mp List.all_takeWhile g (List.mem_of_mem_take hg)
  rw [← hzeros, List.take_append_drop]

/-- A run of zeros that is as long as the longest stands where `beforeZeros` says. -/
theorem zeros_in_place {n : Nat} {groups : List Nat} (h : n ≤ longestZeros groups) :
    groups.take (beforeZeros n groups) ++ List.replicate n 0 ++ groups.drop (beforeZeros n groups + n) = groups := by
  induction groups with
  | nil =>
    have hn : n = 0 := Nat.le_zero.mp h
    subst hn
    rfl
  | cons g groups ih =>
    rw [beforeZeros]
    by_cases hlead : n ≤ leadingZeros (g :: groups)
    · rw [if_pos hlead, List.take_zero, List.nil_append, Nat.zero_add]
      exact zeros_of_le_leadingZeros hlead
    · have hrest : n ≤ longestZeros groups := by
        rw [longestZeros] at h
        omega
      rw [if_neg hlead, List.take_succ_cons, List.cons_append, List.cons_append, Nat.add_right_comm,
        List.drop_succ_cons, ih hrest]

/-! ## IPv6 -/

theorem mem_groupsText {groups : List Nat} {c : Char} (h : c ∈ (groupsText groups).toList) :
    c = ':' ∨ c.isAlphanum = true := by
  rw [toList_groupsText] at h
  rcases mem_joined h with rfl | ⟨piece, hpiece, hc⟩
  · exact Or.inl rfl
  · exact Or.inr ((spelled_spec hpiece).2 c hc)

/-- The characters of an IPv6 address are colons and digits. -/
theorem mem_ipv6Text {groups : List Nat} {c : Char} (h : c ∈ (ipv6Text groups).toList) :
    c = ':' ∨ c.isAlphanum = true := by
  unfold ipv6Text at h
  simp only at h
  split at h
  · exact mem_groupsText h
  · simp only [String.toList_append, List.mem_append] at h
    rcases h with (h | h) | h
    · exact mem_groupsText h
    · exact Or.inl (by simpa using h)
    · exact mem_groupsText h

/-- Eight groups of sixteen bits. -/
structure Ipv6Address (groups : List Nat) : Prop where
  eight : groups.length = 8
  small : ∀ g ∈ groups, g < 65536

/-- An IPv6 address is read back from its text. -/
theorem ipv6?_text {groups : List Nat} (h : Ipv6Address groups) : ipv6? (ipv6Text groups).toList = some groups := by
  unfold ipv6? ipv6Text
  simp only
  by_cases hlongest : longestZeros groups < 2
  · have whole := cutDoubleColon_spelled groups []
    rw [List.append_nil] at whole
    rw [if_pos hlongest, toList_groupsText, whole]
    simp [cutDoubleColon, colonPieces_joined_spelled, ipv6Groups?_spelled h.small, h.eight]
  · -- The groups that are written, and the zeros between them, are eight.
    have place := zeros_in_place (n := longestZeros groups) (Nat.le_refl _)
    generalize groups.take (beforeZeros (longestZeros groups) groups) = left at place ⊢
    generalize groups.drop (beforeZeros (longestZeros groups) groups + longestZeros groups) = right at place ⊢
    have count : left.length + longestZeros groups + right.length = 8 := by
      have length := congrArg List.length place
      rwa [List.length_append, List.length_append, List.length_replicate, h.eight] at length
    have small : (∀ g ∈ left, g < 65536) ∧ ∀ g ∈ right, g < 65536 := by
      have small := h.small
      rw [← place] at small
      refine ⟨fun g hg => small g ?_, fun g hg => small g (List.mem_append_right _ hg)⟩
      exact List.mem_append_left _ (List.mem_append_left _ hg)
    have apart := cutDoubleColon_spelled left (':' :: ':' :: joined ':' (spelled right))
    rw [cutDoubleColon, List.append_nil] at apart
    have text : (groupsText left ++ "::" ++ groupsText right).toList
        = joined ':' (spelled left) ++ ':' :: ':' :: joined ':' (spelled right) := by
      simp [toList_groupsText]
    rw [if_neg hlongest, text, apart]
    simp only [colonPieces_joined_spelled, ipv6Groups?_spelled small.1, ipv6Groups?_spelled small.2]
    have missing : 8 - (left.length + right.length) = longestZeros groups := by omega
    have some_missing : 0 < longestZeros groups := by omega
    show (if 0 < 8 - (left.length + right.length) then _ else _) = _
    rw [missing, if_pos some_missing]
    exact congrArg some place

theorem ipv6Group?_lt {cs : List Char} {g : Nat} (h : ipv6Group? cs = some g) : g < 65536 := by
  unfold ipv6Group? at h
  split at h
  · cases h
  rename_i hlength
  have hlength : cs.length ≤ 4 := by
    simp only [Bool.or_eq_true, decide_eq_true_eq, not_or] at hlength
    omega
  calc g < (0 + 1) * 16 ^ cs.length := lt_of_digits h
    _ ≤ (0 + 1) * 16 ^ 4 := Nat.mul_le_mul_left _ (Nat.pow_le_pow_right (by decide) hlength)
    _ = 65536 := rfl

theorem byte?_le {cs : List Char} {b : Nat} (h : byte? cs = some b) : b ≤ 255 := by
  unfold byte? at h
  split at h
  · cases h
  · cases h
  · cases hread : readDigits 10 255 .tooLarge 0 cs with
    | error e => rw [hread] at h; cases h
    | ok n =>
      rw [hread] at h
      cases h
      exact (readDigits_eq_ok_iff.mp hread).2.2

/-- Each result of a list of readings was read from one of the texts. -/
theorem exists_of_mem_mapM {α β : Type} {f : α → Option β} {all : List α} {values : List β}
    (h : all.mapM f = some values) : ∀ y ∈ values, ∃ x ∈ all, f x = some y := by
  induction all generalizing values with
  | nil =>
    cases h
    exact fun _ hy => absurd hy List.not_mem_nil
  | cons x all ih =>
    rw [List.mapM_cons] at h
    obtain ⟨first, hfirst, h⟩ := Option.bind_eq_some_iff.mp h
    obtain ⟨more, hmore, h⟩ := Option.bind_eq_some_iff.mp h
    cases h
    refine List.forall_mem_cons.mpr ⟨⟨x, List.mem_cons_self, hfirst⟩, fun y hy => ?_⟩
    obtain ⟨x', hx', hread⟩ := ih hmore y hy
    exact ⟨x', List.mem_cons_of_mem _ hx', hread⟩

theorem dottedGroups?_lt {cs : List Char} {groups : List Nat} (h : dottedGroups? cs = some groups) :
    ∀ g ∈ groups, g < 65536 := by
  unfold dottedGroups? at h
  split at h
  · rename_i a b c d hbytes
    cases h
    have byte : ∀ n ∈ [a, b, c, d], n ≤ 255 := by
      intro n hn
      obtain ⟨piece, -, hpiece⟩ := exists_of_mem_mapM hbytes n hn
      exact byte?_le hpiece
    simp only [List.forall_mem_cons] at byte ⊢
    obtain ⟨ha, hb, hc, hd, -⟩ := byte
    refine ⟨by omega, by omega, by simp⟩
  · cases h

theorem ipv6Groups?_lt {dotted : Bool} {all : List (List Char)} {groups : List Nat}
    (h : ipv6Groups? dotted all = some groups) : ∀ g ∈ groups, g < 65536 := by
  fun_induction ipv6Groups? dotted all generalizing groups with
  | case1 => cases h; simp
  | case2 last hdotted => exact dottedGroups?_lt h
  | case3 last hplain =>
    obtain ⟨g, hg, rfl⟩ := Option.map_eq_some_iff.mp h
    simpa using ipv6Group?_lt hg
  | case4 piece more _ ih =>
    obtain ⟨g, hg, h⟩ := Option.bind_eq_some_iff.mp h
    obtain ⟨gs, hgs, h⟩ := Option.bind_eq_some_iff.mp h
    cases h
    exact List.forall_mem_cons.mpr ⟨ipv6Group?_lt hg, ih hgs⟩

/-- What is read as an IPv6 address is one. -/
theorem ipv6Address_of_ipv6? {cs : List Char} {groups : List Nat} (h : ipv6? cs = some groups) :
    Ipv6Address groups := by
  unfold ipv6? at h
  split at h
  · obtain ⟨all, hall, h⟩ := Option.bind_eq_some_iff.mp h
    split at h
    · rename_i height
      cases h
      exact ⟨height, ipv6Groups?_lt hall⟩
    · cases h
  · obtain ⟨left, hleft, h⟩ := Option.bind_eq_some_iff.mp h
    obtain ⟨right, hright, h⟩ := Option.bind_eq_some_iff.mp h
    simp only at h
    split at h
    · cases h
      refine ⟨by simp; omega, ?_⟩
      intro g hg
      rcases List.mem_append.mp hg with hg | hg
      · rcases List.mem_append.mp hg with hg | hg
        · exact ipv6Groups?_lt hleft g hg
        · rw [(List.mem_replicate.mp hg).2]
          decide
      · exact ipv6Groups?_lt hright g hg
    · cases h

end Pagemark.Url.Host
