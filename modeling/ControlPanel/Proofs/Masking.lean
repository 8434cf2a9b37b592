import ControlPanel.Redaction
import Mathlib.Data.List.Infix
import Mathlib.Data.List.TakeWhile

/-!
# Masked addresses

Of an address that stands by itself, masking leaves the first character and the domain. An address
whose domain runs on into another `@` and a domain leaves an address behind, since the characters of
a domain could stand before an `@` themselves; masking the result again masks that one.
-/
namespace ControlPanel.Redaction

structure Address where
  first : Char
  others : List Char
  domain : List Char
  isLocal_first : isLocal first
  isLocal_others : ∀ c ∈ others, isLocal c
  domain_nonempty : domain ≠ []
  isDomain_domain : ∀ c ∈ domain, isDomain c

namespace Address

def localPart (a : Address) : List Char := a.first :: a.others

def chars (a : Address) : List Char := a.localPart ++ '@' :: a.domain

def masked (a : Address) : List Char := a.first :: '*' :: '*' :: '*' :: '@' :: a.domain

theorem localPart_nonempty (a : Address) : a.localPart ≠ [] := List.cons_ne_nil _ _

theorem isLocal_localPart (a : Address) : ∀ c ∈ a.localPart, isLocal c :=
  List.forall_mem_cons.mpr ⟨a.isLocal_first, a.isLocal_others⟩

end Address

/-- A text goes on with `@` and a character of a domain. -/
def Links (cs : List Char) : Prop := ∃ c rest, cs = '@' :: c :: rest ∧ isDomain c

def HasAddressBefore (kind : List Char → Prop) (cs : List Char) : Prop :=
  ∃ (front : List Char) (a : Address) (back : List Char), cs = front ++ a.chars ++ back ∧ kind back

def HasAddress (cs : List Char) : Prop := HasAddressBefore (fun _ => True) cs

/-- An address stands somewhere in a text, and its domain runs on into another `@` and domain. -/
def HasChain (cs : List Char) : Prop := HasAddressBefore Links cs

theorem isLocal_of_isDomain {c : Char} (h : isDomain c) : isLocal c := by
  simp only [isDomain, isLocal, Bool.or_eq_true] at h ⊢
  tauto

theorem Address.isLocal_domain (a : Address) : ∀ c ∈ a.domain, isLocal c :=
  fun c mem => isLocal_of_isDomain (a.isDomain_domain c mem)

theorem not_isLocal_at : isLocal '@' = false := by decide

theorem not_isLocal_star : isLocal '*' = false := by decide

theorem not_isDomain_at : isDomain '@' = false := by decide

def Stops (p : Char → Bool) (rest : List Char) : Prop := ∀ c ∈ rest.head?, p c = false

theorem stops_dropWhile (p : Char → Bool) (cs : List Char) : Stops p (cs.dropWhile p) := by
  intro c first
  have := List.head?_dropWhile_not p cs
  rwa [first] at this

theorem takeWhile_of_stops {p : Char → Bool} {rest : List Char} (stop : Stops p rest) :
    rest.takeWhile p = [] := by
  cases rest with
  | nil => rfl
  | cons c rest => rw [List.takeWhile_cons, stop c rfl]; rfl

theorem dropWhile_of_stops {p : Char → Bool} {rest : List Char} (stop : Stops p rest) :
    rest.dropWhile p = rest := by
  cases rest with
  | nil => rfl
  | cons c rest => rw [List.dropWhile_cons, stop c rfl]; rfl

theorem takeWhile_run {p : Char → Bool} {run rest : List Char} (inside : ∀ c ∈ run, p c)
    (stop : Stops p rest) : (run ++ rest).takeWhile p = run := by
  rw [List.takeWhile_append_of_pos inside, takeWhile_of_stops stop, List.append_nil]

theorem dropWhile_run {p : Char → Bool} {run rest : List Char} (inside : ∀ c ∈ run, p c)
    (stop : Stops p rest) : (run ++ rest).dropWhile p = rest := by
  rw [List.dropWhile_append_of_pos inside, dropWhile_of_stops stop]

theorem maskOf_other {c : Char} (other : isLocal c = false) (rest : List Char) :
    maskOf (c :: rest) = c :: maskOf rest := by
  rw [maskOf, other]
  rfl

theorem maskOf_word {run rest : List Char} (inside : ∀ c ∈ run, isLocal c)
    (stop : Stops isLocal rest) (alone : ¬ Links rest) :
    maskOf (run ++ rest) = run ++ maskOf rest := by
  cases run with
  | nil => rfl
  | cons c run =>
    obtain ⟨first, others⟩ := List.forall_mem_cons.mp inside
    rw [List.cons_append, maskOf, if_pos first]
    split
    · rename_i after follows
      rw [dropWhile_run others stop] at follows
      subst follows
      have no_domain : Stops isDomain after := by
        intro d head
        by_contra domain
        obtain ⟨tail, rfl⟩ := List.head?_eq_some_iff.mp head
        exact alone ⟨d, tail, rfl, by simpa using domain⟩
      rw [takeWhile_run others stop, takeWhile_of_stops no_domain, maskOf_other not_isLocal_at]
      rfl
    · rw [takeWhile_run others stop, dropWhile_run others stop]

theorem maskOf_address (a : Address) {rest : List Char} (stop : Stops isDomain rest) :
    maskOf (a.chars ++ rest) = a.masked ++ maskOf rest := by
  have parts : a.chars ++ rest = a.first :: (a.others ++ '@' :: (a.domain ++ rest)) := by
    simp [Address.chars, Address.localPart]
  have local_stop : Stops isLocal ('@' :: (a.domain ++ rest)) := by
    rintro c ⟨⟩
    exact not_isLocal_at
  rw [parts, maskOf, if_pos a.isLocal_first]
  split
  · rename_i after follows
    rw [dropWhile_run a.isLocal_others local_stop] at follows
    cases follows
    rw [takeWhile_run a.isDomain_domain stop, dropWhile_run a.isDomain_domain stop,
      if_neg (by simpa using a.domain_nonempty)]
    rfl
  · rename_i no_at
    rw [dropWhile_run a.isLocal_others local_stop] at no_at
    exact absurd rfl (no_at _)

/-- A text is a row of addresses, of words that are none, and of other characters. -/
@[elab_as_elim]
theorem piece_induction {motive : List Char → Prop} (nil : motive [])
    (other : ∀ c rest, isLocal c = false → motive rest → motive (c :: rest))
    (word : ∀ run rest, run ≠ [] → (∀ c ∈ run, isLocal c) → Stops isLocal rest → ¬ Links rest →
      motive rest → motive (run ++ rest))
    (address : ∀ (a : Address) rest, Stops isDomain rest → motive rest → motive (a.chars ++ rest))
    (cs : List Char) : motive cs := by
  induction size : cs.length using Nat.strong_induction_on generalizing cs with
  | _ n ih =>
    subst size
    cases cs with
    | nil => exact nil
    | cons c rest =>
      cases start : isLocal c with
      | false => exact other c rest start (ih _ (by simp) rest rfl)
      | true =>
        have whole := List.takeWhile_append_dropWhile (p := isLocal) (l := rest)
        have run : ∀ d ∈ rest.takeWhile isLocal, isLocal d := fun _ => List.mem_takeWhile_imp
        have shorter := length_dropWhile_le isLocal rest
        by_cases linked : Links (rest.dropWhile isLocal)
        · obtain ⟨d, tail, follows, domain⟩ := linked
          rw [follows] at whole shorter
          let a : Address :=
            { first := c
              others := rest.takeWhile isLocal
              domain := (d :: tail).takeWhile isDomain
              isLocal_first := start
              isLocal_others := run
              domain_nonempty := by simp [domain]
              isDomain_domain := fun _ => List.mem_takeWhile_imp }
          have parts : c :: rest = a.chars ++ (d :: tail).dropWhile isDomain := by
            simp [a, Address.chars, Address.localPart, whole]
          have shorter_still := length_dropWhile_le isDomain (d :: tail)
          rw [parts]
          refine address a _ (stops_dropWhile isDomain _) (ih _ ?_ _ rfl)
          simp only [List.length_cons] at shorter shorter_still ⊢
          omega
        · rw [← whole]
          exact word (c :: rest.takeWhile isLocal) _ (List.cons_ne_nil _ _)
            (List.forall_mem_cons.mpr ⟨start, run⟩) (stops_dropWhile isLocal rest) linked
            (ih _ (by simp; omega) _ rfl)

def Continues (kind : List Char → Prop) (cs : List Char) : Prop :=
  ∃ domain back, cs = '@' :: (domain ++ back) ∧ domain ≠ [] ∧ (∀ c ∈ domain, isDomain c) ∧ kind back

variable {kind : List Char → Prop} {c : Char} {run rest : List Char}

theorem Continues.links (h : Continues kind rest) : Links rest := by
  obtain ⟨domain, back, parts, nonempty, inside, -⟩ := h
  cases domain with
  | nil => exact absurd rfl nonempty
  | cons d domain => exact ⟨d, domain ++ back, parts, inside d List.mem_cons_self⟩

theorem continues_iff_links : Continues (fun _ => True) rest ↔ Links rest := by
  refine ⟨Continues.links, ?_⟩
  rintro ⟨d, back, parts, domain⟩
  exact ⟨[d], back, parts, List.cons_ne_nil _ _, List.forall_mem_singleton.mpr domain, trivial⟩

theorem not_continues_of_ne (other : c ≠ '@') : ¬ Continues kind (c :: rest) := by
  rintro ⟨domain, back, parts, -⟩
  exact other (List.cons.inj parts).1

/-- The domain of an address that is followed by another `@` is as long as it can be. -/
theorem continues_links_iff (a : Address) (stop : Stops isDomain rest) :
    Continues Links ('@' :: (a.domain ++ rest)) ↔ Links rest := by
  constructor
  · rintro ⟨domain, back, parts, -, inside, linked⟩
    have back_stops : Stops isDomain back := by
      obtain ⟨d, tail, rfl, -⟩ := linked
      rintro _ ⟨⟩
      exact not_isDomain_at
    have same : rest = back := by
      rw [← dropWhile_run a.isDomain_domain stop, (List.cons.inj parts).2,
        dropWhile_run inside back_stops]
    rwa [same]
  · exact fun linked => ⟨a.domain, rest, rfl, a.domain_nonempty, a.isDomain_domain, linked⟩

theorem not_hasAddressBefore_nil : ¬ HasAddressBefore kind [] := by
  rintro ⟨front, a, back, parts, -⟩
  simp [Address.chars] at parts

theorem hasAddressBefore_cons :
    HasAddressBefore kind (c :: rest) ↔
      isLocal c ∧ Continues kind rest ∨ HasAddressBefore kind rest := by
  constructor
  · rintro ⟨front, ⟨first, others, domain, isLocal_first, isLocal_others, nonempty, inside⟩, back,
      parts, after⟩
    simp only [Address.chars, Address.localPart] at parts
    cases front with
    | nil =>
      cases others with
      | nil =>
        cases parts
        exact .inl ⟨isLocal_first, domain, back, rfl, nonempty, inside, after⟩
      | cons o os =>
        cases parts
        obtain ⟨isLocal_o, isLocal_os⟩ := List.forall_mem_cons.mp isLocal_others
        exact .inr ⟨[], ⟨o, os, domain, isLocal_o, isLocal_os, nonempty, inside⟩, back, rfl, after⟩
    | cons f front =>
      cases parts
      exact .inr ⟨front, ⟨first, others, domain, isLocal_first, isLocal_others, nonempty, inside⟩,
        back, rfl, after⟩
  · rintro (⟨start, domain, back, rfl, nonempty, inside, after⟩ | ⟨front, a, back, rfl, after⟩)
    · exact ⟨[], ⟨c, [], domain, start, nofun, nonempty, inside⟩, back, rfl, after⟩
    · exact ⟨c :: front, a, back, rfl, after⟩

theorem hasAddressBefore_cons_other (other : isLocal c = false) :
    HasAddressBefore kind (c :: rest) ↔ HasAddressBefore kind rest := by
  rw [hasAddressBefore_cons, or_iff_right]
  rintro ⟨start, -⟩
  rw [other] at start
  cases start

/-- In a word an address can only be the one that its last character begins. -/
theorem hasAddressBefore_run (nonempty : run ≠ []) (inside : ∀ c ∈ run, isLocal c) :
    HasAddressBefore kind (run ++ rest) ↔ Continues kind rest ∨ HasAddressBefore kind rest := by
  induction run with
  | nil => exact absurd rfl nonempty
  | cons c run ih =>
    obtain ⟨start, others⟩ := List.forall_mem_cons.mp inside
    rw [List.cons_append, hasAddressBefore_cons, and_iff_right start]
    cases run with
    | nil => rfl
    | cons d run =>
      have no_at : d ≠ '@' := by
        rintro rfl
        exact absurd (others _ List.mem_cons_self) (by decide)
      rw [ih (List.cons_ne_nil _ _) others, List.cons_append,
        or_iff_right (not_continues_of_ne no_at)]

theorem hasAddressBefore_chars (a : Address) :
    HasAddressBefore kind (a.chars ++ rest) ↔ Continues kind ('@' :: (a.domain ++ rest)) ∨
      Continues kind rest ∨ HasAddressBefore kind rest := by
  have parts : a.chars ++ rest = a.localPart ++ '@' :: (a.domain ++ rest) := by
    simp [Address.chars]
  rw [parts, hasAddressBefore_run a.localPart_nonempty a.isLocal_localPart,
    hasAddressBefore_cons_other not_isLocal_at,
    hasAddressBefore_run a.domain_nonempty a.isLocal_domain]

/-- The stars keep what is left of a local part away from the `@`. -/
theorem hasAddressBefore_masked (a : Address) :
    HasAddressBefore kind (a.masked ++ rest) ↔
      Continues kind rest ∨ HasAddressBefore kind rest := by
  have parts : a.masked ++ rest = a.first :: '*' :: '*' :: '*' :: '@' :: (a.domain ++ rest) := rfl
  have apart : ¬ Continues kind ('*' :: '*' :: '*' :: '@' :: (a.domain ++ rest)) :=
    not_continues_of_ne (by decide)
  rw [parts, hasAddressBefore_cons, or_iff_right fun both => apart both.2,
    hasAddressBefore_cons_other not_isLocal_star, hasAddressBefore_cons_other not_isLocal_star,
    hasAddressBefore_cons_other not_isLocal_star, hasAddressBefore_cons_other not_isLocal_at,
    hasAddressBefore_run a.domain_nonempty a.isLocal_domain]

theorem head_maskOf (cs : List Char) : (maskOf cs).head? = cs.head? := by
  induction cs using piece_induction with
  | nil => rw [maskOf]
  | other c rest other ih => rw [maskOf_other other]; rfl
  | word run rest nonempty inside stop alone ih =>
    rw [maskOf_word inside stop alone, List.head?_append_of_ne_nil _ nonempty,
      List.head?_append_of_ne_nil _ nonempty]
  | address a rest stop ih => rw [maskOf_address a stop]; rfl

theorem links_cons : Links (c :: rest) ↔ c = '@' ∧ ∃ d ∈ rest.head?, isDomain d := by
  constructor
  · rintro ⟨d, tail, ⟨⟩, domain⟩
    exact ⟨rfl, d, rfl, domain⟩
  · rintro ⟨rfl, d, head, domain⟩
    obtain ⟨tail, rfl⟩ := List.head?_eq_some_iff.mp head
    exact ⟨d, tail, rfl, domain⟩

theorem links_maskOf (cs : List Char) : Links (maskOf cs) ↔ Links cs := by
  cases cs with
  | nil => rw [maskOf]
  | cons c rest =>
    by_cases at_sign : c = '@'
    · rw [at_sign, maskOf_other not_isLocal_at, links_cons, links_cons, head_maskOf]
    · obtain ⟨tail, masked⟩ := List.head?_eq_some_iff.mp (head_maskOf (c :: rest))
      rw [masked, links_cons, links_cons]
      exact iff_of_false (fun both => at_sign both.1) fun both => at_sign both.1

/-- An address is left behind exactly if the domain of one runs on into another. -/
theorem hasAddress_maskOf (cs : List Char) : HasAddress (maskOf cs) ↔ HasChain cs := by
  unfold HasAddress HasChain
  induction cs using piece_induction with
  | nil =>
    rw [maskOf]
    exact iff_of_false not_hasAddressBefore_nil not_hasAddressBefore_nil
  | other c rest other ih =>
    rw [maskOf_other other, hasAddressBefore_cons_other other, hasAddressBefore_cons_other other,
      ih]
  | word run rest nonempty inside stop alone ih =>
    have unlinked : ¬ Links (maskOf rest) := (links_maskOf rest).not.mpr alone
    rw [maskOf_word inside stop alone, hasAddressBefore_run nonempty inside,
      hasAddressBefore_run nonempty inside, continues_iff_links, ih, or_iff_right unlinked,
      or_iff_right fun chained => alone chained.links]
  | address a rest stop ih =>
    rw [maskOf_address a stop, hasAddressBefore_masked, hasAddressBefore_chars, ih,
      continues_iff_links, links_maskOf, continues_links_iff a stop]
    -- The domain alone, as a word, can begin an address only where the whole address is chained.
    constructor
    · exact Or.imp_right .inr
    · rintro (linked | chained | deeper)
      · exact .inl linked
      · exact .inl chained.links
      · exact .inr deeper

theorem masked_ne_chars (a : Address) (out rest : List Char) :
    a.masked ++ out ≠ a.chars ++ rest := by
  intro same
  have second : '*' :: '*' :: '*' :: '@' :: a.domain ++ out = a.others ++ '@' :: a.domain ++ rest :=
    (List.cons.inj same).2
  cases others : a.others with
  | nil => simp [others] at second
  | cons o os =>
    have star : isLocal o := a.isLocal_others o (by rw [others]; exact List.mem_cons_self)
    rw [others] at second
    rw [← (List.cons.inj second).1, not_isLocal_star] at star
    cases star

/-- Exactly the texts without an address are left as they are. -/
theorem maskOf_eq_self_iff (cs : List Char) : maskOf cs = cs ↔ ¬ HasAddress cs := by
  unfold HasAddress
  induction cs using piece_induction with
  | nil =>
    rw [maskOf]
    exact iff_of_true rfl not_hasAddressBefore_nil
  | other c rest other ih =>
    rw [maskOf_other other, hasAddressBefore_cons_other other, List.cons_inj_right, ih]
  | word run rest nonempty inside stop alone ih =>
    rw [maskOf_word inside stop alone, hasAddressBefore_run nonempty inside, continues_iff_links,
      List.append_right_inj, or_iff_right alone, ih]
  | address a rest stop ih =>
    rw [maskOf_address a stop]
    exact iff_of_false (masked_ne_chars a _ _) (not_not.mpr ⟨[], a, rest, rfl, trivial⟩)

/-- No address goes on after a text: there is no character before its end that could be one of a
local part, nor one before an `@` at its end. -/
structure EndsApart (front : List Char) : Prop where
  last : ∀ init c, front = init ++ [c] → isLocal c = false
  before_at : ∀ init c, front = init ++ [c, '@'] → isLocal c = false

theorem EndsApart.of_append {front back : List Char} (h : EndsApart (front ++ back)) :
    EndsApart back where
  last init c parts := h.last (front ++ init) c (by rw [parts, List.append_assoc])
  before_at init c parts := h.before_at (front ++ init) c (by rw [parts, List.append_assoc])

/-- An address goes on after a word and after an `@` behind it. -/
theorem not_endsApart_run {front : List Char} (nonempty : run ≠ [])
    (inside : ∀ c ∈ run, isLocal c) :
    ¬ EndsApart (front ++ run) ∧ ¬ EndsApart (front ++ run ++ ['@']) := by
  obtain ⟨init, l, rfl⟩ := (List.eq_nil_or_concat' run).resolve_left nonempty
  have isLocal_l : isLocal l := inside l (by simp)
  constructor <;> intro apart
  · have := apart.last (front ++ init) l (by simp)
    rw [isLocal_l] at this
    cases this
  · have := apart.before_at (front ++ init) l (by simp)
    rw [isLocal_l] at this
    cases this

/-- Where no address goes on, a text can be cut before it is masked. -/
theorem maskOf_append {front : List Char} (apart : EndsApart front) (rest : List Char) :
    maskOf (front ++ rest) = maskOf front ++ maskOf rest := by
  induction front using piece_induction with
  | nil => rw [maskOf]; rfl
  | other c front other ih =>
    have whole : EndsApart ([c] ++ front) := apart
    rw [List.cons_append, maskOf_other other, maskOf_other other, ih whole.of_append]
    rfl
  | word run front nonempty inside stop alone ih =>
    cases front with
    | nil =>
      rw [List.append_nil, ← List.nil_append run] at apart
      exact absurd apart (not_endsApart_run nonempty inside).1
    | cons c tail =>
      have stop_then : Stops isLocal (c :: tail ++ rest) := stop
      have alone_then : ¬ Links (c :: tail ++ rest) := by
        rw [List.cons_append, links_cons]
        rintro ⟨rfl, d, head, domain⟩
        -- A domain after the `@` begins before the cut, since the front does not end in this `@`.
        cases tail with
        | nil =>
          rw [← List.nil_append run] at apart
          exact (not_endsApart_run nonempty inside).2 apart
        | cons d' tail =>
          cases head
          exact alone ⟨_, tail, rfl, domain⟩
      rw [List.append_assoc, maskOf_word inside stop_then alone_then, maskOf_word inside stop alone,
        ih apart.of_append, List.append_assoc]
  | address a front stop ih =>
    cases front with
    | nil =>
      have parts : a.chars ++ [] = (a.localPart ++ ['@']) ++ a.domain := by simp [Address.chars]
      rw [parts] at apart
      exact absurd apart (not_endsApart_run a.domain_nonempty a.isLocal_domain).1
    | cons c tail =>
      have stop_then : Stops isDomain (c :: tail ++ rest) := stop
      rw [List.append_assoc, maskOf_address a stop_then, maskOf_address a stop, ih apart.of_append,
        List.append_assoc]

/-- Of an address that stands by itself, the first character and the domain are left. -/
theorem maskOf_apart {front back : List Char} (apart : EndsApart front) (a : Address)
    (stop : Stops isDomain back) :
    maskOf (front ++ a.chars ++ back) = maskOf front ++ a.masked ++ maskOf back := by
  rw [List.append_assoc, maskOf_append apart, maskOf_address a stop, List.append_assoc]

@[simp]
theorem toList_maskAddresses (s : String) : (maskAddresses s).toList = maskOf s.toList := by
  simp [maskAddresses]

/-- Masking leaves no address, and masks nothing more when it is done again, exactly if in the text
no domain runs on into another address. Of each address that stands by itself it leaves the first
character and the domain, whatever else is in the text. -/
theorem maskAddresses_iff (s : String) :
    (¬ HasAddress (maskAddresses s).toList ↔ ¬ HasChain s.toList) ∧
      (maskAddresses (maskAddresses s) = maskAddresses s ↔ ¬ HasChain s.toList) ∧
      ∀ (front : List Char) (a : Address) (back : List Char), s.toList = front ++ a.chars ++ back →
        EndsApart front → Stops isDomain back →
          (maskAddresses s).toList = maskOf front ++ a.masked ++ maskOf back := by
  have left : HasAddress (maskAddresses s).toList ↔ HasChain s.toList := by
    rw [toList_maskAddresses, hasAddress_maskOf]
  refine ⟨left.not, ?_, fun front a back parts apart stop => ?_⟩
  · rw [← left, ← maskOf_eq_self_iff, ← String.toList_inj, toList_maskAddresses]
  · rw [toList_maskAddresses, parts, maskOf_apart apart a stop]

def bobAtHome : Address where
  first := 'b'
  others := ['o', 'b']
  domain := ['h', 'o', 'm', 'e']
  isLocal_first := by decide
  isLocal_others := List.all_eq_true.mp (by decide)
  domain_nonempty := by decide
  isDomain_domain := List.all_eq_true.mp (by decide)

theorem home_address_survives :
    HasAddress (maskAddresses "bob@home@example.org").toList ∧
      maskAddresses (maskAddresses "bob@home@example.org") ≠
        maskAddresses "bob@home@example.org" := by
  have chain : HasChain "bob@home@example.org".toList :=
    ⟨[], bobAtHome, "@example.org".toList, by decide, 'e', "xample.org".toList, by decide, by decide⟩
  have left := (hasAddress_maskOf _).mpr chain
  rw [← toList_maskAddresses] at left
  refine ⟨left, fun same => ?_⟩
  have unmasked := congrArg String.toList same
  rw [toList_maskAddresses, maskOf_eq_self_iff] at unmasked
  exact unmasked left

end ControlPanel.Redaction
