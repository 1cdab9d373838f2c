/-
# Abort codes in the status of a transaction

The status of an aborted transaction is free text, from which the number of the abort is read:
the last group in parentheses if it spells a number, else the last segment between colons, or
the one before it if that is blank.  `StatusSpells` says so of the text alone.  A status of a
documented form gives its own code unless a group of the address or of the message is read
instead (`fromVmStatus_form_iff`).  The module of the abort is not looked at, so an abort of
any module is named after the settlement table if its number is in it
(`fromVmStatus_unnamed_iff`).
-/
import DeadmktNode.Delimited
import DeadmktNode.IntegerText
import DeadmktNode.Settlement
import DeadmktNode.StrategyConvert

/-! ## Reading the status -/

namespace AbortCode

/-- The abort of a number.  The virtual machine adds a category above the low 16 bits. -/
def fromCode (code : UInt64) : AbortCode :=
  let reason := if code > 0xFFFF then code &&& 0xFFFF else code
  match reason.toNat with
  | 0 => .batchTooOld
  | 3 => .invalidSide
  | 8 => .selfTrade
  | 11 | 12 => .signatureVerifyFailed
  | 13 => .buyerInactive
  | 14 => .sellerInactive
  | 15 => .alreadySettled
  | 17 => .marketNotActive
  | 18 => .quantityTooSmall
  | 20 => .quoteAmountZero
  | 21 => .buyerOverfill
  | 22 => .sellerOverfill
  | 23 => .nftBurned
  | 28 => .nftBlocked
  | _ => .other code

/-- A number in hexadecimal after `0x`, else in decimal. -/
def parseCode : List Char → Option UInt64
  | '0' :: 'x' :: hex => fromStrRadix 16 hex
  | text => fromStrRadix 10 text

/-- The number in the last group in parentheses. -/
def groupCode (s : List Char) : Option UInt64 :=
  (lastGroup '(' ')' s).bind fun inner => parseCode (trimChars inner)

/-- The number in the last segment, or in the one before it if the last is blank. -/
def segmentCode (s : List Char) : Option UInt64 :=
  match ((s.splitOn ':').map trimChars).reverse with
  | [] => none
  | codeStr :: before => if codeStr.isEmpty then before.head?.bind parseCode else parseCode codeStr

/-- The number in a status. -/
def statusCode (s : List Char) : Option UInt64 := (groupCode s).or (segmentCode s)

/-- The abort in the status of a transaction, if it is one of an abort. -/
def fromVmStatus (status : String) : Option AbortCode :=
  if "Move abort".toList <:+: status.toList then (statusCode status.toList).map fromCode else none

example : fromVmStatus "Move abort in 0x1::settlement: E_ALREADY_SETTLED(0x8000f): "
    = some .alreadySettled := by decide +kernel

/-! ## What a text spells -/

/-- Text that spells a number: hexadecimal after `0x`, or decimal. -/
def Spells (s : List Char) (n : UInt64) : Prop :=
  (∃ hex, s = '0' :: 'x' :: hex ∧ SpellsIn 16 hex n) ∨ SpellsIn 10 s n

/-- The last opening parenthesis starts a group that spells the number. -/
def GroupSpells (s : List Char) (n : UInt64) : Prop :=
  ∃ before group after, s = before ++ '(' :: (group ++ ')' :: after) ∧ ')' ∉ group ∧
    '(' ∉ group ++ ')' :: after ∧ Spells (trimChars group) n

/-- The last segment between colons spells the number, or the last one before a blank one. -/
def SegmentSpells (s : List Char) (n : UInt64) : Prop :=
  ∃ before seg rest, s.splitOn ':' = before ++ seg :: rest ∧ Spells (trimChars seg) n ∧
    (rest = [] ∨ ∃ blank, rest = [blank] ∧ ∀ c ∈ blank, isWhitespace c = true)

/-- The number of a status: that of its last group, or else that of its last segment. -/
def StatusSpells (s : List Char) (n : UInt64) : Prop :=
  GroupSpells s n ∨ (∀ m, ¬ GroupSpells s m) ∧ SegmentSpells s n

section

variable {s : List Char} {n : UInt64}

/-- Nothing is left of white space alone. -/
theorem trimChars_eq_nil_iff : trimChars s = [] ↔ ∀ c ∈ s, isWhitespace c = true := by
  unfold trimChars
  rw [List.reverse_eq_nil_iff, List.dropWhile_eq_nil_iff]
  simp only [List.mem_reverse]
  refine ⟨fun h => ?_, fun h c hc => h c ((List.dropWhile_suffix _).subset hc)⟩
  have hnil : s.dropWhile isWhitespace = [] := by
    by_contra hne
    exact absurd (h _ (List.head_mem hne)) (by simp [List.head_dropWhile_not _ hne])
  exact List.dropWhile_eq_nil_iff.mp hnil

/-- White space in front goes. -/
theorem trimChars_cons_of_whitespace {c : Char} (h : isWhitespace c = true) :
    trimChars (c :: s) = trimChars s := by
  rw [trimChars, List.dropWhile_cons_of_pos h]
  rfl

/-- A text without white space stays. -/
theorem trimChars_of_not_whitespace (h : ∀ c ∈ s, isWhitespace c = false) : trimChars s = s := by
  have hdrop : ∀ {l : List Char}, (∀ c ∈ l, isWhitespace c = false) →
      l.dropWhile isWhitespace = l := by
    intro l hl
    cases l with
    | nil => rfl
    | cons c l => exact List.dropWhile_cons_of_neg (by simp [hl c List.mem_cons_self])
  rw [trimChars, hdrop h, hdrop (by simpa using h), List.reverse_reverse]

/-- Read is exactly what spells a code. -/
theorem parseCode_eq_some_iff : parseCode s = some n ↔ Spells s n := by
  have hx : ∀ hex, ¬ SpellsIn 10 ('0' :: 'x' :: hex) n := by
    intro hex hspells
    have hchar := hspells.char (List.mem_cons_of_mem _ List.mem_cons_self)
    exact absurd hchar (by decide)
  unfold parseCode Spells
  split
  · rename_i hex
    rw [fromStrRadix_eq_some_iff (by decide)]
    refine ⟨fun h => .inl ⟨hex, rfl, h⟩, ?_⟩
    rintro (⟨hex', heq, h⟩ | h)
    · obtain rfl := (List.cons.inj (List.cons.inj heq).2).2
      exact h
    · exact absurd h (hx hex)
  · rename_i hnot
    rw [fromStrRadix_eq_some_iff (by decide)]
    refine ⟨.inr, ?_⟩
    rintro (⟨hex, heq, -⟩ | h)
    · exact absurd heq (hnot hex)
    · exact h

/-- Read from parentheses is exactly what they spell. -/
theorem groupCode_eq_some_iff : groupCode s = some n ↔ GroupSpells s n := by
  rw [groupCode, Option.bind_eq_some_iff]
  constructor
  · rintro ⟨group, hgroup, hcode⟩
    obtain ⟨before, after, hs, hcl, hop⟩ := lastGroup_eq_some_iff.mp hgroup
    exact ⟨before, group, after, hs, hcl, hop, parseCode_eq_some_iff.mp hcode⟩
  · rintro ⟨before, group, after, hs, hcl, hop, hspells⟩
    exact ⟨group, lastGroup_eq_some_iff.mpr ⟨before, after, hs, hcl, hop⟩,
      parseCode_eq_some_iff.mpr hspells⟩

/-- An empty text is no code. -/
theorem not_spells_nil : ¬ Spells [] n := by
  rw [← parseCode_eq_some_iff]
  nofun

/-- Read from a segment is exactly what it spells. -/
theorem segmentCode_eq_some_iff : segmentCode s = some n ↔ SegmentSpells s n := by
  obtain ⟨init, last, hsegs⟩ : ∃ init last, s.splitOn ':' = init ++ [last] :=
    ⟨_, _, (List.dropLast_append_getLast (List.splitOn_ne_nil ':' s)).symm⟩
  have hcode : segmentCode s = if trimChars last = [] then
      (init.map trimChars).getLast?.bind parseCode else parseCode (trimChars last) := by
    rw [segmentCode, hsegs, List.map_append, List.reverse_append]
    simp only [List.map_cons, List.map_nil, List.reverse_cons, List.reverse_nil, List.nil_append,
      List.singleton_append, List.isEmpty_iff, List.head?_reverse]
  unfold SegmentSpells
  rw [hcode, hsegs]
  constructor
  · intro h
    split_ifs at h with hblank
    · obtain ⟨text, htext, hparse⟩ := Option.bind_eq_some_iff.mp h
      rw [List.getLast?_map, Option.map_eq_some_iff] at htext
      obtain ⟨prev, hprev, rfl⟩ := htext
      obtain ⟨before, rfl⟩ := List.getLast?_eq_some_iff.mp hprev
      exact ⟨before, prev, [last], List.append_assoc .., parseCode_eq_some_iff.mp hparse,
        .inr ⟨last, rfl, trimChars_eq_nil_iff.mp hblank⟩⟩
    · exact ⟨init, last, [], rfl, parseCode_eq_some_iff.mp h, .inl rfl⟩
  · rintro ⟨before, seg, rest, heq, hspells, rfl | ⟨blank, rfl, hblank⟩⟩
    · obtain ⟨-, hlast⟩ := List.append_inj' heq rfl
      obtain rfl := (List.cons.inj hlast).1
      rw [if_neg fun hnil => not_spells_nil (hnil ▸ hspells), parseCode_eq_some_iff]
      exact hspells
    · obtain ⟨rfl, hlast⟩ := List.append_inj' (heq.trans (List.append_cons before seg [blank])) rfl
      obtain rfl := (List.cons.inj hlast).1
      rw [if_pos (trimChars_eq_nil_iff.mpr hblank), List.map_append, List.map_singleton,
        List.getLast?_concat, Option.bind_some, parseCode_eq_some_iff]
      exact hspells

/-- **What is read.**  The number that is read from a status is the one that it spells. -/
theorem statusCode_eq_some_iff : statusCode s = some n ↔ StatusSpells s n := by
  rw [statusCode, Option.or_eq_some_iff, groupCode_eq_some_iff, Option.eq_none_iff_forall_ne_some,
    segmentCode_eq_some_iff]
  simp only [ne_eq, groupCode_eq_some_iff]
  rfl

/-- A code is read from the statuses of an abort that spell one. -/
theorem fromVmStatus_eq_some_iff {status : String} {code : AbortCode} :
    fromVmStatus status = some code ↔ "Move abort".toList <:+: status.toList ∧
      ∃ n, StatusSpells status.toList n ∧ fromCode n = code := by
  unfold fromVmStatus
  split_ifs with habort
  · rw [and_iff_right habort, Option.map_eq_some_iff]
    simp only [statusCode_eq_some_iff]
  · exact iff_of_false nofun fun h => habort h.1

end

/-! ## Reasons -/

/-- The reasons of the settlement contract that have a name. -/
def settlementReasons : List ℕ := [0, 3, 8, 11, 12, 13, 14, 15, 17, 18, 20, 21, 22, 23, 28]

/-- The low 16 bits of an abort number. -/
def reasonOf (n : UInt64) : ℕ := n.toNat % 2 ^ 16

/-- A number has no name if and only if its reason is not in the table. -/
theorem fromCode_eq_other_iff {n : UInt64} :
    fromCode n = .other n ↔ reasonOf n ∉ settlementReasons := by
  have hreason : (if n > 0xFFFF then n &&& 0xFFFF else n).toNat = reasonOf n := by
    unfold reasonOf
    split_ifs with hlarge
    · exact (UInt64.toNat_and n 0xFFFF).trans (Nat.and_two_pow_sub_one_eq_mod n.toNat 16)
    · have hle := UInt64.le_iff_toNat_le.mp (UInt64.not_lt.mp hlarge)
      have hmax : (0xFFFF : UInt64).toNat = 65535 := rfl
      omega
  unfold fromCode settlementReasons
  dsimp only
  rw [hreason]
  split <;> simp_all

/-- The abort of a number is named after the table, or is the number itself. -/
theorem fromCode_other {n m : UInt64} (h : fromCode n = .other m) : m = n := by
  unfold fromCode at h
  dsimp only at h
  split at h <;> simp_all

/-! ## The documented forms -/

/-- The status of an abort in a module. -/
def moveAbort (addr module rest : String) : String :=
  "Move abort in " ++ addr ++ "::" ++ module ++ ": " ++ rest

/-- What stands after the module: the number, perhaps with a colon after it, or its name with
the number in parentheses and a message. -/
inductive AbortForm where
  | number (text : String) (trailingColon : Bool)
  | named (name hex message : String)

/-- The text of a form. -/
def AbortForm.text : AbortForm → String
  | .number text false => text
  | .number text true => text ++ ":"
  | .named name hex message => name ++ "(0x" ++ hex ++ "): " ++ message

/-- The form writes the number, in decimal or in hexadecimal. -/
def AbortForm.Of (code : UInt64) : AbortForm → Prop
  | .number text _ =>
      (∃ hex, text.toList = '0' :: 'x' :: hex ∧ Writes 16 hex code.toNat) ∨
        Writes 10 text.toList code.toNat
  | .named _ hex _ => Writes 16 hex.toList code.toNat

/-- No number of another abort is read instead of that of the form: a group of the address, or
whatever is read in a message with an opening parenthesis. -/
def AbortForm.Unambiguous (addr : String) (code : UInt64) : AbortForm → Prop
  | .number .. => ∀ n, GroupSpells addr.toList n → fromCode n = fromCode code
  | .named _ _ message => '(' ∈ message.toList →
      ∃ n, StatusSpells message.toList n ∧ fromCode n = fromCode code

section

variable {addr module : String} {code n : UInt64}

/-- The characters of a status. -/
theorem moveAbort_toList (rest : String) :
    (moveAbort addr module rest).toList
      = ("Move abort in ".toList ++ (addr.toList ++ ("::".toList ++ module.toList)))
        ++ ':' :: ' ' :: rest.toList := by
  unfold moveAbort
  rw [String.toList_append, String.toList_append, String.toList_append, String.toList_append,
    String.toList_append, List.append_assoc, List.append_assoc, List.append_assoc,
    List.append_assoc, List.append_assoc, List.append_assoc]
  rfl

/-- Such a status is that of an abort. -/
theorem isInfix_moveAbort (rest : String) :
    "Move abort".toList <:+: (moveAbort addr module rest).toList := by
  have hpre : "Move abort".toList <+: "Move abort in ".toList := by decide
  rw [moveAbort_toList, List.append_assoc]
  exact (hpre.trans (List.prefix_append _ _)).isInfix

/-- The characters of a number are no delimiters and no white space. -/
theorem Spells.char {text : List Char} (h : Spells text n) {c : Char} (hc : c ∈ text) :
    digitVal c < 36 ∨ c = '+' := by
  have hspells : ∀ {radix : ℕ} {s : List Char}, radix ≤ 36 → SpellsIn radix s n → c ∈ s →
      digitVal c < 36 ∨ c = '+' := by
    intro radix s hradix hs hmem
    exact (hs.char hmem).imp (fun hlt => hlt.trans_le hradix) id
  rcases h with ⟨hex, rfl, hs⟩ | hs
  · rcases List.mem_cons.mp hc with rfl | hc
    · exact .inl (by decide)
    · rcases List.mem_cons.mp hc with rfl | hc
      · exact .inl (by decide)
      · exact hspells (by decide) hs hc
  · exact hspells (by decide) hs hc

/-- What is neither digit nor sign does not occur in a code. -/
theorem Spells.notMem {text : List Char} (h : Spells text n) {c : Char}
    (hc : digitVal c = 36) (hplus : c ≠ '+') : c ∉ text :=
  fun hmem => (h.char hmem).elim (fun hlt => absurd hlt (by omega)) hplus

/-- White space is no digit of any radix. -/
theorem digitVal_of_whitespace {c : Char} (h : isWhitespace c = true) : digitVal c = 36 := by
  unfold isWhitespace at h
  simp only [Bool.or_eq_true, Bool.and_eq_true, decide_eq_true_eq] at h
  have hn : c.val.toNat = c.toNat := rfl
  unfold digitVal Char.isDigit Char.isLower Char.isUpper
  simp only [Bool.and_eq_true, decide_eq_true_eq, ge_iff_le, UInt32.le_iff_toNat_le, hn,
    Char.reduceVal, UInt32.reduceToNat]
  split_ifs <;> omega

/-- A code has no white space around it. -/
theorem Spells.trim {text : List Char} (h : Spells text n) : trimChars text = text := by
  apply trimChars_of_not_whitespace
  intro c hc
  rw [Bool.eq_false_iff]
  intro hspace
  rcases h.char hc with hlt | rfl
  · rw [digitVal_of_whitespace hspace] at hlt
    omega
  · exact absurd hspace (by decide)

/-- A text that is not blank hides the segments before it. -/
theorem segmentCode_append {xs ys : List Char} {c : Char} (hc : c ∈ ys) (hcolon : c ≠ ':')
    (hspace : isWhitespace c = false) : segmentCode (xs ++ ':' :: ' ' :: ys) = segmentCode ys := by
  obtain ⟨seg, hseg, hmem⟩ := exists_mem_splitOn hc hcolon
  have hne : trimChars seg ≠ [] := by
    intro hnil
    rw [trimChars_eq_nil_iff.mp hnil c hmem] at hspace
    cases hspace
  have htrim : ((' ' :: ys).splitOn ':').map trimChars = (ys.splitOn ':').map trimChars := by
    obtain ⟨first, segs, hsegs⟩ := List.exists_cons_of_ne_nil (List.splitOn_ne_nil ':' ys)
    rw [List.splitOn_cons_eq_if_modifyHead, if_neg (by decide), hsegs, List.modifyHead_cons,
      List.map_cons, List.map_cons, trimChars_cons_of_whitespace (by decide)]
  unfold segmentCode
  rw [List.splitOn_append_cons_self, List.map_append, List.reverse_append, htrim]
  have hblank : trimChars seg ∈ ((ys.splitOn ':').map trimChars).reverse :=
    List.mem_reverse.mpr (List.mem_map_of_mem hseg)
  cases hsegs : ((ys.splitOn ':').map trimChars).reverse with
  | nil =>
      rw [hsegs] at hblank
      cases hblank
  | cons last before =>
      rw [hsegs] at hblank
      rw [List.cons_append]
      dsimp only
      split_ifs with hempty
      · -- the last segment is blank, so there is another one
        rcases List.mem_cons.mp hblank with hlast | hbefore
        · exact absurd (hlast.trans (List.isEmpty_iff.mp hempty)) hne
        · rw [List.head?_append_of_ne_nil _ (List.ne_nil_of_mem hbefore)]
      · rfl

/-- After the module the number of the first form is read as it stands. -/
theorem segmentCode_number {xs text : List Char} (h : Spells text code) (blank : List Char)
    (hblank : blank = [] ∨ blank = [':']) :
    segmentCode (xs ++ ':' :: ' ' :: (text ++ blank)) = some code := by
  have hcolon : ':' ∉ ' ' :: text := by
    rw [List.mem_cons, not_or]
    exact ⟨by decide, h.notMem (by decide) (by decide)⟩
  have htrim : Spells (trimChars (' ' :: text)) code := by
    rwa [trimChars_cons_of_whitespace (by decide), h.trim]
  rw [segmentCode_eq_some_iff]
  rcases hblank with rfl | rfl
  · refine ⟨xs.splitOn ':', ' ' :: text, [], ?_, htrim, .inl rfl⟩
    rw [List.splitOn_append_cons_self, List.append_nil, List.splitOn_eq_singleton hcolon]
  · refine ⟨xs.splitOn ':', ' ' :: text, [[]], ?_, htrim, .inr ⟨[], rfl, nofun⟩⟩
    rw [List.splitOn_append_cons_self, ← List.cons_append,
      List.splitOn_append_cons_self_of_not_mem hcolon, List.splitOn_nil]

/-- The characters of a bare code. -/
theorem number_toList (text : String) (trailingColon : Bool) :
    (AbortForm.number text trailingColon).text.toList
      = text.toList ++ if trailingColon then [':'] else [] := by
  cases trailingColon with
  | false => exact (List.append_nil _).symm
  | true => exact String.toList_append

/-- The status of the first form: a group of the address comes before the number. -/
theorem statusCode_number {text : String} (h : Spells text.toList code) (trailingColon : Bool) :
    statusCode (moveAbort addr "settlement" (AbortForm.number text trailingColon).text).toList
      = (groupCode addr.toList).or (some code) := by
  rw [statusCode, moveAbort_toList, number_toList, segmentCode_number h]
  · congr 1
    have hclear : ∀ c, c = '(' ∨ c = ')' → c ∉ "::".toList ++ "settlement".toList
        ++ ':' :: ' ' :: (text.toList ++ if trailingColon then [':'] else []) := by
      intro c hc
      simp only [List.mem_append, List.mem_cons, not_or]
      rcases hc with rfl | rfl
      · exact ⟨⟨by decide, by decide⟩, by decide, by decide, h.notMem (by decide) (by decide),
          by cases trailingColon <;> decide⟩
      · exact ⟨⟨by decide, by decide⟩, by decide, by decide, h.notMem (by decide) (by decide),
          by cases trailingColon <;> decide⟩
    rw [groupCode, groupCode, List.append_assoc, lastGroup_append_left_of_notMem (by decide),
      List.append_assoc,
      lastGroup_append_of_notMem (hclear _ (.inl rfl)) (hclear _ (.inr rfl))]
  · cases trailingColon with
    | false => exact .inl rfl
    | true => exact .inr rfl

/-- The characters of a named code. -/
theorem named_toList (name hex message : String) :
    (AbortForm.named name hex message).text.toList
      = name.toList
        ++ '(' :: ('0' :: 'x' :: hex.toList ++ ')' :: ':' :: ' ' :: message.toList) := by
  unfold AbortForm.text
  rw [String.toList_append, String.toList_append, String.toList_append, String.toList_append,
    List.append_assoc, List.append_assoc, List.append_assoc]
  rfl

/-- The status of the named form: a message with an opening parenthesis is read alone. -/
theorem statusCode_named {name hex message : String} (h : Writes 16 hex.toList code.toNat) :
    statusCode (moveAbort addr module (AbortForm.named name hex message).text).toList
      = if '(' ∈ message.toList then statusCode message.toList else some code := by
  have hspells : Spells ('0' :: 'x' :: hex.toList) code := .inl ⟨_, rfl, _, .inl rfl, h⟩
  rw [moveAbort_toList, named_toList]
  generalize "Move abort in ".toList ++ (addr.toList ++ ("::".toList ++ module.toList)) = place
  split_ifs with hparen
  · have hmessage : place ++ ':' :: ' ' :: (name.toList ++ '(' :: ('0' :: 'x' :: hex.toList
        ++ ')' :: ':' :: ' ' :: message.toList))
        = (place ++ ':' :: ' ' :: (name.toList ++ '(' :: ('0' :: 'x' :: hex.toList ++ [')'])))
          ++ ':' :: ' ' :: message.toList := by simp
    rw [hmessage, statusCode, statusCode, segmentCode_append hparen (by decide) (by decide),
      groupCode, groupCode, lastGroup_append_of_mem (by simp [hparen])]
    congr 2
    show lastGroup '(' ')' ([':', ' '] ++ message.toList) = _
    exact lastGroup_append_of_mem hparen
  · have hgroup : lastGroup '(' ')' (place ++ ':' :: ' ' :: (name.toList ++ '(' ::
        ('0' :: 'x' :: hex.toList ++ ')' :: ':' :: ' ' :: message.toList)))
        = some ('0' :: 'x' :: hex.toList) := by
      refine lastGroup_eq_some_iff.mpr ⟨place ++ ':' :: ' ' :: name.toList,
        ':' :: ' ' :: message.toList, by simp, hspells.notMem (by decide) (by decide), ?_⟩
      rw [List.mem_append, not_or]
      refine ⟨hspells.notMem (by decide) (by decide), ?_⟩
      simp only [List.mem_cons, not_or]
      exact ⟨by decide, by decide, by decide, hparen⟩
    rw [statusCode, groupCode, hgroup, Option.bind_some, hspells.trim,
      parseCode_eq_some_iff.mpr hspells, Option.some_or]

/-- The code is that of the part behind the module. -/
theorem fromVmStatus_moveAbort (rest : String) :
    fromVmStatus (moveAbort addr module rest)
      = (statusCode (moveAbort addr module rest).toList).map fromCode :=
  if_pos (isInfix_moveAbort rest)

/-- **The documented forms.**  The status of an abort of the settlement module gives the abort
of its number if and only if no other abort is read in its address or in its message. -/
theorem fromVmStatus_form_iff {form : AbortForm} (h : form.Of code) :
    fromVmStatus (moveAbort addr "settlement" form.text) = some (fromCode code)
      ↔ form.Unambiguous addr code := by
  rw [fromVmStatus_moveAbort]
  cases form with
  | number text trailingColon =>
      have hspells : Spells text.toList code :=
        h.imp (fun ⟨hex, htext, hwrites⟩ => ⟨hex, htext, hex, .inl rfl, hwrites⟩)
          fun hwrites => ⟨_, .inl rfl, hwrites⟩
      rw [statusCode_number hspells]
      unfold AbortForm.Unambiguous
      simp only [← groupCode_eq_some_iff]
      cases groupCode addr.toList with
      | none => simp
      | some n => simp
  | named name hex message =>
      rw [statusCode_named h]
      unfold AbortForm.Unambiguous
      dsimp only
      split_ifs with hparen
      · rw [Option.map_eq_some_iff, forall_prop_of_true hparen]
        simp only [statusCode_eq_some_iff]
      · exact iff_of_true rfl fun hmem => absurd hmem hparen

/-! ## Aborts of other modules -/

/-- No abort of the settlement contract: none at all, or one without a name. -/
def Unnamed (code : Option AbortCode) : Prop := ∀ c ∈ code, ∃ n, c = .other n

/-- An abort that has no name releases the match; it counts neither as settled already nor as
one of our own NFT. -/
theorem onSettlementFailed_of_unnamed {abort : Option AbortCode} (h : Unnamed abort)
    (mgr : SettlementManager) (matchHash : String) :
    (mgr.onSettlementFailed matchHash (abort.getD (.other 0))).1 = .releasePending ∧
      (mgr.onSettlementFailed matchHash (abort.getD (.other 0))).2.alreadySettledCount
        = mgr.alreadySettledCount := by
  obtain ⟨n, hn⟩ : ∃ n, abort.getD (.other 0) = .other n := by
    cases abort with
    | none => exact ⟨0, rfl⟩
    | some c => exact h c rfl
  have hown : (mgr.countAttempt (.other n)).isOwn matchHash (fun _ => []) = false := by
    rw [SettlementManager.isOwn, Option.any_eq_false_iff_get]
    exact fun _ => rfl
  have hcount : ((mgr.countAttempt (.other n)).releasePendingInternal matchHash).alreadySettledCount
      = mgr.alreadySettledCount := by
    unfold SettlementManager.releasePendingInternal
    split <;> rfl
  rw [hn]
  show (SettlementManager.releaseWith _ matchHash fun _ => []).1 = _ ∧
    (SettlementManager.releaseWith _ matchHash fun _ => []).2.alreadySettledCount = _
  rw [SettlementManager.releaseWith, hown]
  exact ⟨rfl, hcount⟩

/-- **Whose abort.**  The abort of any module is taken for none of the settlement contract, and
only releases its match, if and only if the number that its status spells is not in the table
of the settlement contract. -/
theorem fromVmStatus_unnamed_iff (addr module rest : String) :
    (Unnamed (fromVmStatus (moveAbort addr module rest)) ∧
      ∀ (mgr : SettlementManager) (matchHash : String),
        let result := mgr.onSettlementFailed matchHash
          ((fromVmStatus (moveAbort addr module rest)).getD (.other 0))
        result.1 = .releasePending ∧ result.2.alreadySettledCount = mgr.alreadySettledCount) ↔
      ∀ n, StatusSpells (moveAbort addr module rest).toList n →
        reasonOf n ∉ settlementReasons := by
  have hunnamed : Unnamed (fromVmStatus (moveAbort addr module rest)) ↔
      ∀ n, StatusSpells (moveAbort addr module rest).toList n →
        reasonOf n ∉ settlementReasons := by
    rw [fromVmStatus_moveAbort]
    simp only [Unnamed, Option.mem_def, Option.map_eq_some_iff, statusCode_eq_some_iff,
      forall_exists_index, and_imp]
    constructor
    · intro h n hn
      obtain ⟨m, hm⟩ := h (fromCode n) n hn rfl
      rw [← fromCode_eq_other_iff, hm, fromCode_other hm]
    · rintro h _ n hn rfl
      exact ⟨n, fromCode_eq_other_iff.mpr (h n hn)⟩
  rw [← hunnamed, and_iff_left_iff_imp]
  exact fun h mgr matchHash => onSettlementFailed_of_unnamed h mgr matchHash

end

/-! ## Three statuses -/

/-- The code of a settled trade in hexadecimal. -/
theorem eight_f_written : Writes 16 "8000f".toList (0x8000f : UInt64).toNat := by
  decide +kernel

/-- A named abort without a message. -/
theorem named_abort_read :
    fromVmStatus
        (moveAbort "0x1" "settlement" (AbortForm.named "E_ALREADY_SETTLED" "8000f" "").text)
      = some (fromCode 0x8000f) :=
  (fromVmStatus_form_iff
    (show AbortForm.Of 0x8000f (.named "E_ALREADY_SETTLED" "8000f" "") from
      eight_f_written)).mpr fun h => absurd h (by decide)

/-- A number in parentheses in the message is read instead of the code. -/
theorem message_number_read :
    ¬ ∀ (addr : String) (form : AbortForm) (code : UInt64), form.Of code →
      fromVmStatus (moveAbort addr "settlement" form.text) = some (fromCode code) := by
  intro h
  have hread := h "0x1" (.named "E_ALREADY_SETTLED" "8000f" "trade (5) was settled") 0x8000f
    eight_f_written
  exact absurd hread (by decide +kernel)

/-- Abort 15 of the coin module is taken for a match that is settled already, and kept. -/
theorem coin_abort_named :
    ¬ ∀ (addr module rest : String), module ≠ "settlement" →
      Unnamed (fromVmStatus (moveAbort addr module rest)) ∧
        ∀ (mgr : SettlementManager) (matchHash : String),
          let result := mgr.onSettlementFailed matchHash
            ((fromVmStatus (moveAbort addr module rest)).getD (.other 0))
          result.1 = .releasePending ∧
            result.2.alreadySettledCount = mgr.alreadySettledCount := by
  intro h
  obtain ⟨n, hn⟩ := (h "0x1" "coin" "15" (by decide)).1 .alreadySettled (by decide +kernel)
  cases hn

end AbortCode
