import ControlPanel.Composer
import ControlPanel.Text.Utf8
import Mathlib.Data.List.TakeWhile

/-!
# Mails in URLs

The URL that a mail program is opened with is read by its marks: the address stands before the first
question mark, and the headers stand behind it, between ampersands, each a name and a value with an
equals sign between them. Whatever a mail holds, its three parts come out as they went in, and no
header is added.
-/
namespace ControlPanel.Mail

open Text (hexValue? upperHexDigit)

def IsUnreserved (c : Char) : Prop := c.isAlphanum ∨ c ∈ ['_', '.', '-', '~']

/-- Characters of a class, and percent signs each of which is followed by two hexadecimal digits. -/
inductive Encoded (Kept : Char → Prop) : List Char → Prop where
  | nil : Encoded Kept []
  | kept {c : Char} {cs : List Char} : Kept c → Encoded Kept cs → Encoded Kept (c :: cs)
  | triple {high low : Char} {cs : List Char} : (hexValue? high).isSome → (hexValue? low).isSome →
      Encoded Kept cs → Encoded Kept ('%' :: high :: low :: cs)

def bytesOf? : List Char → Option (List UInt8)
  | [] => some []
  | '%' :: high :: low :: cs => do
    let high ← hexValue? high
    let low ← hexValue? low
    return UInt8.ofNat (16 * high + low) :: (← bytesOf? cs)
  | c :: cs => if c = '%' then none else (bytesOf? cs).map (String.utf8EncodeChar c ++ ·)

def decodePart? (cs : List Char) : Option String := do
  (Text.ofUtf8? (← bytesOf? cs).toByteArray).toOption

variable {Kept : Char → Prop} {keep : Char → Bool} {cs ds : List Char}

theorem hexValue_upperHexDigit {n : Nat} (small : n < 16) : hexValue? (upperHexDigit n) = some n := by
  have all : ∀ n < 16, hexValue? (upperHexDigit n) = some n := by decide
  exact all n small

theorem high_half_lt (b : UInt8) : b.toNat / 16 < 16 := by
  have := b.toNat_lt
  omega

theorem Encoded.append (first : Encoded Kept cs) (second : Encoded Kept ds) :
    Encoded Kept (cs ++ ds) := by
  induction first with
  | nil => exact second
  | kept own _ ih => exact .kept own ih
  | triple high low _ ih => exact .triple high low ih

theorem encoded_percentByte (b : UInt8) : Encoded Kept (percentByte b) := by
  refine .triple ?_ ?_ .nil
  · rw [hexValue_upperHexDigit (high_half_lt b)]
    rfl
  · rw [hexValue_upperHexDigit (Nat.mod_lt _ (by decide))]
    rfl

theorem encoded_percentEncode (kept : ∀ c, keep c → Kept c) (s : String) :
    Encoded Kept (percentEncode keep s) := by
  unfold percentEncode
  induction s.toList with
  | nil => exact .nil
  | cons c cs ih =>
    rw [List.flatMap_cons]
    apply Encoded.append _ ih
    by_cases own : keep c
    · rw [if_pos own]
      exact .kept (kept c own) .nil
    · rw [if_neg own]
      induction String.utf8EncodeChar c with
      | nil => exact .nil
      | cons b bytes ih => exact (encoded_percentByte b).append ih

theorem Encoded.mono {Kept' : Char → Prop} (wider : ∀ c, Kept c → Kept' c)
    (encoded : Encoded Kept cs) : Encoded Kept' cs := by
  induction encoded with
  | nil => exact .nil
  | kept own _ ih => exact .kept (wider _ own) ih
  | triple high low _ ih => exact .triple high low ih

/-- A mark that is neither kept nor part of a triple does not occur. -/
theorem Encoded.not_mem {mark : Char} (encoded : Encoded Kept cs) (unkept : ¬ Kept mark)
    (other : mark ≠ '%') (no_digit : hexValue? mark = none) : mark ∉ cs := by
  have differs {digit : Char} (h : (hexValue? digit).isSome) : mark ≠ digit := by
    rintro rfl
    rw [no_digit] at h
    cases h
  induction encoded with
  | nil => exact List.not_mem_nil
  | @kept c cs own _ ih =>
    rw [List.mem_cons, not_or]
    constructor
    · rintro rfl
      exact unkept own
    · exact ih
  | triple high low _ ih => simp [other, differs high, differs low, ih]

theorem bytesOf_percentByte (b : UInt8) (cs : List Char) :
    bytesOf? (percentByte b ++ cs) = (bytesOf? cs).map (b :: ·) := by
  have whole : UInt8.ofNat (16 * (b.toNat / 16) + b.toNat % 16) = b := by
    rw [Nat.div_add_mod, UInt8.ofNat_toNat]
  have high := hexValue_upperHexDigit (high_half_lt b)
  have low := hexValue_upperHexDigit (Nat.mod_lt b.toNat (by decide : 0 < 16))
  simp only [percentByte, List.cons_append, List.nil_append, bytesOf?, high, low, bind,
    Option.bind_some, whole]
  cases bytesOf? cs <;> rfl

theorem bytesOf_percentBytes (bytes : List UInt8) (cs : List Char) :
    bytesOf? (bytes.flatMap percentByte ++ cs) = (bytesOf? cs).map (bytes ++ ·) := by
  induction bytes with
  | nil => simp
  | cons b bytes ih =>
    rw [List.flatMap_cons, List.append_assoc, bytesOf_percentByte, ih, Option.map_map]
    rfl

theorem bytesOf_kept {c : Char} (other : c ≠ '%') (cs : List Char) :
    bytesOf? (c :: cs) = (bytesOf? cs).map (String.utf8EncodeChar c ++ ·) := by
  rw [bytesOf?.eq_3 c cs fun _ _ _ percent _ => other percent, if_neg other]

/-- An encoded text stands for the bytes of the text. -/
theorem bytesOf_percentEncode (unkept : keep '%' = false) (s : String) :
    bytesOf? (percentEncode keep s) = some (s.toList.flatMap String.utf8EncodeChar) := by
  unfold percentEncode
  induction s.toList with
  | nil => rfl
  | cons c cs ih =>
    rw [List.flatMap_cons, List.flatMap_cons]
    by_cases own : keep c
    · have other : c ≠ '%' := by
        rintro rfl
        rw [unkept] at own
        cases own
      rw [if_pos own, List.singleton_append, bytesOf_kept other, ih]
      rfl
    · rw [if_neg own, bytesOf_percentBytes, ih]
      rfl

theorem decodePart_percentEncode (unkept : keep '%' = false) (s : String) :
    decodePart? (percentEncode keep s) = some s := by
  have bytes : (s.toList.flatMap String.utf8EncodeChar).toByteArray = s.toUTF8 :=
    String.utf8Encode_toList
  have decoded := Text.ofUtf8_toUTF8 s
  rw [← bytes] at decoded
  rw [decodePart?, bytesOf_percentEncode unkept, Option.bind_eq_bind, Option.bind_some, decoded]
  rfl

def scheme : List Char := "mailto:".toList

/-- What a mail program takes from a URL: whom to write to, and the headers in their order. -/
structure Opened where
  address : String
  headers : List (String × String)
  deriving DecidableEq, Repr

def readHeader? (field : List Char) : Option (String × String) :=
  match field.dropWhile (· ≠ '=') with
  | [] => none
  | _ :: value => do return (← decodePart? (field.takeWhile (· ≠ '=')), ← decodePart? value)

def readMail? (cs : List Char) : Option Opened := do
  let address ← decodePart? (cs.takeWhile (· ≠ '?'))
  match cs.dropWhile (· ≠ '?') with
  | [] => return ⟨address, []⟩
  | _ :: fields => return ⟨address, ← (fields.splitOn '&').mapM readHeader?⟩

/-- Reads a URL by its marks. What follows a number sign is no part of the mail. -/
def readUrl? (url : String) : Option Opened :=
  let cs := url.toList.takeWhile (· ≠ '#')
  if scheme.isPrefixOf cs then readMail? (cs.drop scheme.length) else none

theorem takeWhile_before {mark : Char} (absent : mark ∉ cs) (ds : List Char) :
    (cs ++ mark :: ds).takeWhile (· ≠ mark) = cs := by
  have all : ∀ c ∈ cs, (decide (c ≠ mark)) = true := fun c hc =>
    decide_eq_true fun same => absent (same ▸ hc)
  rw [List.takeWhile_append_of_pos all, List.takeWhile_cons_of_neg (by simp), List.append_nil]

theorem dropWhile_before {mark : Char} (absent : mark ∉ cs) (ds : List Char) :
    (cs ++ mark :: ds).dropWhile (· ≠ mark) = mark :: ds := by
  have all : ∀ c ∈ cs, (decide (c ≠ mark)) = true := fun c hc =>
    decide_eq_true fun same => absent (same ▸ hc)
  rw [List.dropWhile_append_of_pos all, List.dropWhile_cons_of_neg (by simp)]

theorem takeWhile_absent {mark : Char} (absent : mark ∉ cs) : cs.takeWhile (· ≠ mark) = cs :=
  List.takeWhile_eq_self_iff.mpr fun _ hc => decide_eq_true fun same => absent (same ▸ hc)

structure StandsFor (Kept : Char → Prop) (part : List Char) (text : String) : Prop where
  encoded : Encoded Kept part
  decoded : decodePart? part = some text

def IsInAddress (c : Char) : Prop := IsUnreserved c ∨ c = '@'

theorem isUnreserved_of_keep {c : Char} (keep : isUnreserved c) : IsUnreserved c := by
  simp only [isUnreserved, Bool.and_eq_true, Bool.or_eq_true, decide_eq_true_eq] at keep
  simpa [IsUnreserved, or_assoc] using keep.2

theorem isInAddress_of_keep {c : Char} (keep : isAddressChar c) : IsInAddress c := by
  simp only [isAddressChar, Bool.or_eq_true, decide_eq_true_eq] at keep
  exact keep.imp_left isUnreserved_of_keep

theorem standsFor_header (s : String) : StandsFor IsUnreserved (percentEncode isUnreserved s) s :=
  ⟨encoded_percentEncode (fun _ => isUnreserved_of_keep) s, decodePart_percentEncode rfl s⟩

theorem standsFor_address (s : String) : StandsFor IsInAddress (percentEncode isAddressChar s) s :=
  ⟨encoded_percentEncode (fun _ => isInAddress_of_keep) s, decodePart_percentEncode rfl s⟩

theorem StandsFor.in_address {text : String} (h : StandsFor IsUnreserved cs text) :
    StandsFor IsInAddress cs text :=
  ⟨h.encoded.mono fun _ => .inl, h.decoded⟩

def marks : List Char := ['?', '&', '=', '#']

theorem StandsFor.no_mark {text : String} (h : StandsFor IsInAddress cs text) :
    ∀ mark ∈ marks, mark ∉ cs := by
  intro mark among
  have plain : ¬ IsInAddress mark ∧ mark ≠ '%' ∧ hexValue? mark = none := by
    obtain ⟨letter, kept, percent, digit⟩ : mark.isAlphanum = false ∧
        mark ∉ ['_', '.', '-', '~', '@'] ∧ mark ≠ '%' ∧ hexValue? mark = none := by
      simp only [marks, List.mem_cons, List.not_mem_nil, or_false] at among
      rcases among with rfl | rfl | rfl | rfl <;> decide
    refine ⟨?_, percent, digit⟩
    rintro ((own | own) | own)
    · rw [letter] at own
      cases own
    · exact kept (List.mem_append_left ['@'] own)
    · exact kept (List.mem_append_right ['_', '.', '-', '~'] (List.mem_singleton.mpr own))
  exact h.encoded.not_mem plain.1 plain.2.1 plain.2.2

theorem readHeader_of {name value : List Char} {n v : String} (hn : StandsFor IsUnreserved name n)
    (hv : StandsFor IsUnreserved value v) : readHeader? (name ++ '=' :: value) = some (n, v) := by
  have absent : '=' ∉ name := hn.in_address.no_mark '=' (by decide)
  simp only [readHeader?, dropWhile_before absent, takeWhile_before absent, hn.decoded, hv.decoded,
    bind, Option.bind_some, pure]

theorem readMail_of {a : List Char} {fields : List (List Char)} {address : String}
    {headers : List (String × String)} (ha : StandsFor IsInAddress a address)
    (nonempty : fields ≠ []) (undivided : ∀ field ∈ fields, '&' ∉ field)
    (read : fields.mapM readHeader? = some headers) :
    readMail? (a ++ '?' :: ['&'].intercalate fields) = some ⟨address, headers⟩ := by
  have absent : '?' ∉ a := ha.no_mark '?' (by decide)
  simp only [readMail?, dropWhile_before absent, takeWhile_before absent, ha.decoded, bind,
    Option.bind_some, List.splitOn_intercalate '&' undivided nonempty, read, pure]

variable {a s b : List Char} {address subject body : String}

theorem toList_urlOf (a s b : List Char) : (urlOf a s b).toList =
    scheme ++ a ++ "?subject=".toList ++ s ++ "&body=".toList ++ b :=
  String.toList_ofList

theorem count_between {mark : Char} (ha : mark ∉ a) (hs : mark ∉ s) (hb : mark ∉ b)
    (p q r : List Char) : (p ++ a ++ q ++ s ++ r ++ b).count mark = (p ++ q ++ r).count mark := by
  simp only [List.count_append, List.count_eq_zero.mpr ha, List.count_eq_zero.mpr hs,
    List.count_eq_zero.mpr hb, Nat.add_zero]

/-- Parts that stand for texts make a URL with one question mark, one ampersand and no number sign. -/
theorem count_marks_urlOf (ha : StandsFor IsInAddress a address)
    (hs : StandsFor IsUnreserved s subject) (hb : StandsFor IsUnreserved b body) :
    (urlOf a s b).toList.count '?' = 1 ∧ (urlOf a s b).toList.count '&' = 1 ∧
      '#' ∉ (urlOf a s b).toList := by
  have total : ∀ mark ∈ marks, (urlOf a s b).toList.count mark =
      (scheme ++ "?subject=".toList ++ "&body=".toList).count mark := by
    intro mark among
    rw [toList_urlOf]
    exact count_between (ha.no_mark mark among) (hs.in_address.no_mark mark among)
      (hb.in_address.no_mark mark among) _ _ _
  refine ⟨?_, ?_, List.count_eq_zero.mp ?_⟩
  · exact (total '?' (by decide)).trans (by decide)
  · exact (total '&' (by decide)).trans (by decide)
  · exact (total '#' (by decide)).trans (by decide)

theorem standsFor_literal (name : String) (plain : percentEncode isUnreserved name = name.toList) :
    StandsFor IsUnreserved name.toList name := by
  have h := standsFor_header name
  rwa [plain] at h

theorem readUrl_urlOf (ha : StandsFor IsInAddress a address)
    (hs : StandsFor IsUnreserved s subject) (hb : StandsFor IsUnreserved b body) :
    readUrl? (urlOf a s b) = some ⟨address, [("subject", subject), ("body", body)]⟩ := by
  let fields := ["subject".toList ++ '=' :: s, "body".toList ++ '=' :: b]
  have shape : (urlOf a s b).toList = scheme ++ (a ++ '?' :: ['&'].intercalate fields) := by
    have subject_mark : "?subject=".toList = '?' :: ("subject".toList ++ ['=']) := rfl
    have body_mark : "&body=".toList = '&' :: ("body".toList ++ ['=']) := rfl
    have joined (first last : List Char) : ['&'].intercalate [first, last] = first ++ '&' :: last := by
      simp
    simp only [toList_urlOf, subject_mark, body_mark, fields, joined, List.append_assoc,
      List.cons_append, List.nil_append]
  have undivided : ∀ field ∈ fields, '&' ∉ field := by
    simp [fields, hs.in_address.no_mark '&' (by decide), hb.in_address.no_mark '&' (by decide)]
  have read : fields.mapM readHeader? = some [("subject", subject), ("body", body)] := by
    simp only [fields, List.mapM_cons, List.mapM_nil,
      readHeader_of (standsFor_literal "subject" (by decide)) hs,
      readHeader_of (standsFor_literal "body" (by decide)) hb, bind, Option.bind_some, pure]
  rw [readUrl?, takeWhile_absent (count_marks_urlOf ha hs hb).2.2, shape]
  simp only [List.isPrefixOf_iff_prefix.mpr (List.prefix_append _ _), if_true, List.drop_left]
  exact readMail_of ha (by simp [fields]) undivided read

/-- The URL of a mail is made of three encoded parts that stand for its address, subject and body,
with one question mark, one ampersand and no number sign, and reads back as that mail. So does the
URL that a mail program is opened with, whatever stands in the address, the subject or the names in
the body. -/
theorem url_carries_fields (address subject body : String) :
    (∃ a s b, url address subject body = String.ofList ("mailto:".toList ++ a ++
        "?subject=".toList ++ s ++ "&body=".toList ++ b) ∧
      StandsFor IsInAddress a address ∧ StandsFor IsUnreserved s subject ∧
      StandsFor IsUnreserved b body) ∧
    (url address subject body).toList.count '?' = 1 ∧
    (url address subject body).toList.count '&' = 1 ∧
    '#' ∉ (url address subject body).toList ∧
    readUrl? (url address subject body) = some ⟨address, [("subject", subject), ("body", body)]⟩ ∧
    ∀ opens, ∀ opened ∈ (Composer.compose opens address ⟨subject, body⟩).2,
      readUrl? opened = some ⟨address, [("subject", subject), ("body", body)]⟩ := by
  have ha := standsFor_address address
  have hs := standsFor_header subject
  have hb := standsFor_header body
  obtain ⟨questions, ampersands, signs⟩ := count_marks_urlOf ha hs hb
  have read := readUrl_urlOf ha hs hb
  refine ⟨⟨_, _, _, rfl, ha, hs, hb⟩, questions, ampersands, signs, read, ?_⟩
  intro opens opened among
  by_cases blank : Text.isBlankText address
  · rw [Composer.compose, if_pos blank] at among
    cases among
  · rw [Composer.compose, if_neg blank] at among
    rw [List.mem_singleton.mp among]
    exact read

end ControlPanel.Mail
