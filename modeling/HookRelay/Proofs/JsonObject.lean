import HookRelay.Proofs.JsonScalar

/-!
# Arrays and objects of JSON

The bracketed texts of JSON, with what they hold.  The grammar is a relation between texts and lists
of entries, so that it says which members an object has and how each of them is written.

* `Json.Separated`, `Json.Bracketed`: entries with commas between them, and the same in brackets.
* `Json.IsValue`: a value, which is a scalar, an array or an object.
* `Json.Object`: a text is an object with a given list of members.

A text is read in one way only.  `Stopped` says so of entries, which end in front of a comma, a
colon or a closing bracket, and it is passed on from values to entries, to lists of entries and to
brackets.  `IsValue.delimited` goes around that circle by `IsValue.induct`, and `Object.unique` is
its consequence: an object has one list of members.
-/

namespace HookRelay
namespace Json

def comma : UInt8 := 0x2c
def colon : UInt8 := 0x3a
def openingBracket : UInt8 := 0x5b
def closingBracket : UInt8 := 0x5d
def openingBrace : UInt8 := 0x7b
def closingBrace : UInt8 := 0x7d

/-- The bytes in front of which an entry ends. -/
def isStop (byte : UInt8) : Bool :=
  byte == comma || byte == colon || byte == closingBracket || byte == closingBrace

/-- A text of some kind between blanks. -/
inductive Padded (kind : Bytes → Prop) : Bytes → Bytes → Prop where
  | padded {before text after : Bytes} (front : Space before) (within : kind text)
      (back : Space after) : Padded kind text (before ++ text ++ after)

/-- A member of an object: its name with the quotation marks, and the text of its value. -/
structure Member where
  name : Bytes
  value : Bytes

inductive IsMember (kind : Bytes → Prop) : Member → Bytes → Prop where
  | named {name value left right : Bytes} (before : Padded IsString name left)
      (after : Padded kind value right) : IsMember kind ⟨name, value⟩ (left ++ colon :: right)

section Lists

variable {α : Type}

/-- Entries with commas between them. -/
inductive Separated (entry : α → Bytes → Prop) : List α → Bytes → Prop where
  | single {item : α} {text : Bytes} (h : entry item text) : Separated entry [item] text
  | cons {item : α} {items : List α} {text rest : Bytes} (h : entry item text)
      (others : Separated entry items rest) :
      Separated entry (item :: items) (text ++ comma :: rest)

inductive Bracketed (opening closing : UInt8) (entry : α → Bytes → Prop) :
    List α → Bytes → Prop where
  | empty {space : Bytes} (h : Space space) :
      Bracketed opening closing entry [] (opening :: (space ++ [closing]))
  | filled {items : List α} {inner : Bytes} (h : Separated entry items inner) :
      Bracketed opening closing entry items (opening :: (inner ++ [closing]))

end Lists

inductive IsValue : Bytes → Prop where
  | scalar {text : Bytes} (h : IsScalar text) : IsValue text
  | array {elements : List Bytes} {text : Bytes}
      (h : Bracketed openingBracket closingBracket (Padded IsValue) elements text) : IsValue text
  | object {members : List Member} {text : Bytes}
      (h : Bracketed openingBrace closingBrace (IsMember IsValue) members text) : IsValue text

/-- The text is an object with these members, each written like this. -/
def Object (members : List Member) (text : Bytes) : Prop :=
  Bracketed openingBrace closingBrace (IsMember IsValue) members text

/-- What holds of scalars, and of arrays and objects of values of which it holds, holds of all
values. -/
theorem IsValue.induct
    {P : Bytes → Prop}
    (scalar : ∀ {text}, IsScalar text → P text)
    (array : ∀ {elements text},
      Bracketed openingBracket closingBracket (Padded (fun value => IsValue value ∧ P value))
        elements text → P text)
    (object : ∀ {members text},
      Bracketed openingBrace closingBrace (IsMember (fun value => IsValue value ∧ P value))
        members text → P text)
    {text : Bytes} (h : IsValue text) : P text :=
  @IsValue.rec
    (fun text _ => P text)
    (fun elements text _ =>
      Bracketed openingBracket closingBracket (Padded (fun value => IsValue value ∧ P value))
        elements text)
    (fun members text _ =>
      Bracketed openingBrace closingBrace (IsMember (fun value => IsValue value ∧ P value))
        members text)
    (fun elements text _ => Separated (Padded (fun value => IsValue value ∧ P value)) elements text)
    (fun members text _ => Separated (IsMember (fun value => IsValue value ∧ P value)) members text)
    (fun value text _ => Padded (fun value => IsValue value ∧ P value) value text)
    (fun member text _ => IsMember (fun value => IsValue value ∧ P value) member text)
    scalar (fun _ => array) (fun _ => object)
    .empty (fun _ => .filled) .empty (fun _ => .filled)
    (fun _ => .single) (fun _ _ => .cons) (fun _ => .single) (fun _ _ => .cons)
    (fun front within back holds => .padded front ⟨within, holds⟩ back)
    (fun before _ => .named before)
    text h

/-! ## Bytes of different kinds -/

theorem isToken_of_isSpace {byte : UInt8} (h : isSpace byte = true) : isToken byte = false := by
  simp only [isSpace, Bool.or_eq_true, beq_iff_eq] at h
  rcases h with ((rfl | rfl) | rfl) | rfl <;> decide

theorem not_of_isStop {byte : UInt8} (h : isStop byte = true) :
    isSpace byte = false ∧ isToken byte = false := by
  simp only [isStop, Bool.or_eq_true, beq_iff_eq] at h
  rcases h with ((rfl | rfl) | rfl) | rfl <;> decide

theorem isSpace_head_of_isStop {stop : UInt8} (h : isStop stop = true) (back : Bytes) :
    ∀ byte ∈ (stop :: back).head?, isSpace byte = false := by
  simpa using (not_of_isStop h).1

theorem not_of_isToken {byte : UInt8} (h : isToken byte = true) :
    isSpace byte = false ∧ isStop byte = false := by
  constructor
  · refine Bool.eq_false_iff.mpr (fun space => ?_)
    rw [isToken_of_isSpace space] at h
    contradiction
  · refine Bool.eq_false_iff.mpr (fun stop => ?_)
    rw [(not_of_isStop stop).2] at h
    contradiction

/-! ## How texts begin -/

/-- A text that begins with a byte of its own: not with a blank, and not with one that would have
ended what is in front of it. -/
def Opens (text : Bytes) : Prop :=
  ∃ byte later, text = byte :: later ∧ isSpace byte = false ∧ isStop byte = false

/-- A text that has such a byte behind its blanks. -/
def Shown (text : Bytes) : Prop :=
  ∃ before shown, text = before ++ shown ∧ Space before ∧ Opens shown

theorem Opens.isSpace_head {text : Bytes} (h : Opens text) (rest : Bytes) :
    ∀ byte ∈ (text ++ rest).head?, isSpace byte = false := by
  obtain ⟨byte, later, rfl, space, -⟩ := h
  simpa using space

theorem IsScalar.opens {text : Bytes} (h : IsScalar text) : Opens text := by
  obtain ⟨byte, later, rfl, rfl | token⟩ := h.exists_cons
  · exact ⟨quote, later, rfl, by decide, by decide⟩
  · exact ⟨byte, later, rfl, not_of_isToken token⟩

theorem IsString.opens {text : Bytes} (h : IsString text) : Opens text :=
  (IsScalar.string h).opens

theorem Bracketed.exists_inner
    {α : Type} {opening closing : UInt8} {entry : α → Bytes → Prop} {items : List α} {text : Bytes}
    (h : Bracketed opening closing entry items text) :
    ∃ inner,
      text = opening :: (inner ++ [closing]) ∧
        (items = [] ∧ Space inner ∨ Separated entry items inner) := by
  cases h with
  | empty blank =>
      exact ⟨_, rfl, Or.inl ⟨rfl, blank⟩⟩
  | filled list =>
      exact ⟨_, rfl, Or.inr list⟩

theorem Bracketed.exists_cons
    {α : Type} {opening closing : UInt8} {entry : α → Bytes → Prop} {items : List α} {text : Bytes}
    (h : Bracketed opening closing entry items text) :
    ∃ later, text = opening :: later := by
  obtain ⟨inner, rfl, -⟩ := h.exists_inner
  exact ⟨_, rfl⟩

theorem IsValue.opens {text : Bytes} (h : IsValue text) : Opens text := by
  cases h with
  | scalar h =>
      exact h.opens
  | array h =>
      obtain ⟨later, rfl⟩ := h.exists_cons
      exact ⟨openingBracket, later, rfl, by decide, by decide⟩
  | object h =>
      obtain ⟨later, rfl⟩ := h.exists_cons
      exact ⟨openingBrace, later, rfl, by decide, by decide⟩

section Shown

variable {α : Type} {entry : α → Bytes → Prop}

theorem Shown.append {text : Bytes} (h : Shown text) (rest : Bytes) : Shown (text ++ rest) := by
  obtain ⟨before, shown, rfl, space, byte, later, rfl, own⟩ := h
  exact ⟨before, byte :: (later ++ rest), by simp, space, byte, later ++ rest, rfl, own⟩

theorem Padded.shown
    {kind : Bytes → Prop} (opens : ∀ {text}, kind text → Opens text)
    {text padded : Bytes} (h : Padded kind text padded) : Shown padded := by
  cases h with
  | padded front within back =>
      rw [List.append_assoc]
      obtain ⟨byte, later, rfl, own⟩ := opens within
      exact ⟨_, _, rfl, front, byte, later ++ _, rfl, own⟩

theorem IsMember.shown
    {kind : Bytes → Prop} {member : Member} {text : Bytes} (h : IsMember kind member text) :
    Shown text := by
  cases h with
  | named before after =>
      exact (before.shown IsString.opens).append _

theorem Separated.shown
    (shown : ∀ {item text}, entry item text → Shown text)
    {items : List α} {text : Bytes} (h : Separated entry items text) : Shown text := by
  cases h with
  | single h =>
      exact shown h
  | cons h others =>
      exact (shown h).append _

theorem Separated.ne_nil {items : List α} {text : Bytes} (h : Separated entry items text) :
    items ≠ [] := by
  cases h with
  | single h =>
      exact List.cons_ne_nil _ _
  | cons h others =>
      exact List.cons_ne_nil _ _

/-- What is shown comes before the first byte that ends an entry. -/
theorem Shown.append_ne_space
    {text space : Bytes} {stop : UInt8}
    (h : Shown text) (blank : Space space) (ends : isStop stop = true) (rest back : Bytes) :
    text ++ rest ≠ space ++ stop :: back := by
  obtain ⟨before, shown, rfl, front, byte, later, rfl, notSpace, notStop⟩ := h
  intro same
  rw [List.append_assoc, List.cons_append] at same
  have behind := (eq_of_append_eq_of_kind front blank (by simpa using notSpace)
    (isSpace_head_of_isStop ends back) same).2
  rw [(List.cons.inj behind).1, ends] at notStop
  contradiction

theorem Shown.not_space {text : Bytes} (h : Shown text) : ¬ Space text :=
  fun blank => h.append_ne_space blank (by decide : isStop comma = true) [comma] [] rfl

end Shown

/-! ## Where texts end -/

/-- No other text of a kind stands at the beginning of the same bytes, if nothing follows that could
belong to either. -/
def Delimited (kind : Bytes → Prop) (text : Bytes) : Prop :=
  ∀ ⦃other back rest : Bytes⦄,
    kind other → Apart back → Apart rest → text ++ back = other ++ rest → text = other

section Stopped

variable {α : Type}

/-- The same for all entries of two kinds, which are followed by a byte that ends them, and for what
they hold. -/
def Stopped (first second : α → Bytes → Prop) : Prop :=
  ∀ ⦃item item' : α⦄ ⦃text other back rest : Bytes⦄ ⦃stop stop' : UInt8⦄,
    first item text → second item' other → isStop stop = true → isStop stop' = true →
      text ++ stop :: back = other ++ stop' :: rest → item = item' ∧ text = other

theorem IsString.delimited {text : Bytes} (h : IsString text) : Delimited IsString text :=
  fun _ _ _ k _ _ => h.eq_of_append_eq k

theorem apart_append_of_isStop
    {space : Bytes} {stop : UInt8}
    (blank : Space space) (ends : isStop stop = true) (back : Bytes) :
    Apart (space ++ stop :: back) := by
  cases space with
  | nil =>
      simpa [Apart] using (not_of_isStop ends).2
  | cons byte later =>
      simpa [Apart] using isToken_of_isSpace (blank byte List.mem_cons_self)

theorem Padded.stopped
    {first second : Bytes → Prop}
    (delimited : ∀ {text}, first text → Delimited second text)
    (opens : ∀ {text}, first text → Opens text) (opensToo : ∀ {text}, second text → Opens text) :
    Stopped (Padded first) (Padded second) := by
  intro item item' text other back rest stop stop' h k ends endsToo same
  cases h with
  | padded front within behind =>
      cases k with
      | padded front' within' behind' =>
          simp only [List.append_assoc] at same
          obtain ⟨rfl, later⟩ := eq_of_append_eq_of_kind front front'
            ((opens within).isSpace_head _) ((opensToo within').isSpace_head _) same
          obtain rfl := delimited within within' (apart_append_of_isStop behind ends back)
            (apart_append_of_isStop behind' endsToo rest) later
          obtain ⟨rfl, -⟩ := eq_of_append_eq_of_kind behind behind'
            (isSpace_head_of_isStop ends back) (isSpace_head_of_isStop endsToo rest)
            (List.append_cancel_left later)
          exact ⟨rfl, rfl⟩

theorem IsMember.stopped
    {first second : Bytes → Prop}
    (delimited : ∀ {text}, first text → Delimited second text)
    (opens : ∀ {text}, first text → Opens text) (opensToo : ∀ {text}, second text → Opens text) :
    Stopped (IsMember first) (IsMember second) := by
  have names := Padded.stopped IsString.delimited IsString.opens IsString.opens
  have values := Padded.stopped delimited opens opensToo
  intro item item' text other back rest stop stop' h k ends endsToo same
  cases h with
  | named before after =>
      cases k with
      | named before' after' =>
          simp only [List.append_assoc, List.cons_append] at same
          obtain ⟨rfl, rfl⟩ := names before before' (by decide) (by decide) same
          have behind := (List.cons.inj (List.append_cancel_left same)).2
          obtain ⟨rfl, rfl⟩ := values after after' ends endsToo behind
          exact ⟨rfl, rfl⟩

variable {first second : α → Bytes → Prop} (entries : Stopped first second)
include entries

/-- Two lists of entries in front of one closing byte are the same. -/
theorem Separated.eq_of_append_eq
    {closing : UInt8} (ends : isStop closing = true) (notComma : closing ≠ comma)
    {items items' : List α} {text other back rest : Bytes}
    (h : Separated first items text) (k : Separated second items' other)
    (same : text ++ closing :: back = other ++ closing :: rest) :
    items = items' ∧ text = other := by
  induction h generalizing items' other with
  | single h =>
      cases k with
      | single k =>
          obtain ⟨rfl, rfl⟩ := entries h k ends ends same
          exact ⟨rfl, rfl⟩
      | cons k others =>
          rw [List.append_assoc, List.cons_append] at same
          obtain ⟨-, rfl⟩ := entries h k ends (by decide) same
          exact absurd (List.cons.inj (List.append_cancel_left same)).1 notComma
  | cons h others ih =>
      cases k with
      | single k =>
          rw [List.append_assoc, List.cons_append] at same
          obtain ⟨-, rfl⟩ := entries h k (by decide) ends same
          exact absurd (List.cons.inj (List.append_cancel_left same)).1.symm notComma
      | cons k others' =>
          simp only [List.append_assoc, List.cons_append] at same
          obtain ⟨rfl, rfl⟩ := entries h k (by decide) (by decide) same
          have behind := (List.cons.inj (List.append_cancel_left same)).2
          obtain ⟨rfl, rfl⟩ := ih others' behind
          exact ⟨rfl, rfl⟩

/-- A bracketed text shows by itself where it ends. -/
theorem Bracketed.eq_of_append_eq
    (shown : ∀ {item text}, first item text → Shown text)
    (shownToo : ∀ {item text}, second item text → Shown text)
    {opening closing : UInt8} (ends : isStop closing = true) (notComma : closing ≠ comma)
    {items items' : List α} {text other back rest : Bytes}
    (h : Bracketed opening closing first items text)
    (k : Bracketed opening closing second items' other)
    (same : text ++ back = other ++ rest) :
    items = items' ∧ text = other := by
  obtain ⟨inner, rfl, inside⟩ := h.exists_inner
  obtain ⟨inner', rfl, inside'⟩ := k.exists_inner
  simp only [List.cons_append, List.append_assoc, List.nil_append, List.cons.injEq,
    true_and] at same
  rcases inside with ⟨rfl, blank⟩ | list
  · rcases inside' with ⟨rfl, blank'⟩ | list'
    · obtain ⟨rfl, -⟩ := eq_of_append_eq_of_kind blank blank' (isSpace_head_of_isStop ends back)
        (isSpace_head_of_isStop ends rest) same
      exact ⟨rfl, rfl⟩
    · exact absurd same.symm ((list'.shown shownToo).append_ne_space blank ends _ _)
  · rcases inside' with ⟨rfl, blank'⟩ | list'
    · exact absurd same ((list.shown shown).append_ne_space blank' ends _ _)
    · obtain ⟨rfl, rfl⟩ := Separated.eq_of_append_eq entries ends notComma list list' same
      exact ⟨rfl, rfl⟩

end Stopped

/-- An entry in front of a comma is the first entry of a list, and the others are behind the
comma. -/
theorem Separated.append_cons_iff
    {α : Type} {entry : α → Bytes → Prop} (entries : Stopped entry entry)
    {item : α} {items : List α} {text rest : Bytes} (first : entry item text) :
    Separated entry items (text ++ comma :: rest) ↔
      ∃ others, items = item :: others ∧ Separated entry others rest := by
  constructor
  · intro list
    generalize same : text ++ comma :: rest = whole at list
    cases list with
    | single h =>
        -- The entry would have to end at the comma, and cannot be longer.
        have longer : text ++ comma :: (rest ++ [comma]) = whole ++ comma :: [] := by
          rw [← same]
          simp
        obtain ⟨-, equal⟩ := entries first h (by decide) (by decide) longer
        rw [← equal] at same
        simp at same
    | cons h others =>
        obtain ⟨rfl, rfl⟩ := entries first h (by decide) (by decide) same
        have behind := (List.cons.inj (List.append_cancel_left same)).2
        exact ⟨_, rfl, behind ▸ others⟩
  · rintro ⟨others, rfl, list⟩
    exact .cons first list

/-! ## Values -/

theorem Bracketed.append_ne
    {α β : Type} {opening opening' closing closing' : UInt8}
    {entry : α → Bytes → Prop} {entry' : β → Bytes → Prop}
    {items : List α} {items' : List β} {text other : Bytes}
    (h : Bracketed opening closing entry items text)
    (k : Bracketed opening' closing' entry' items' other)
    (differs : opening ≠ opening') (back rest : Bytes) :
    text ++ back ≠ other ++ rest := by
  obtain ⟨later, rfl⟩ := h.exists_cons
  obtain ⟨later', rfl⟩ := k.exists_cons
  exact fun same => differs (List.cons.inj same).1

theorem IsScalar.append_ne_bracketed
    {α : Type} {opening closing : UInt8} {entry : α → Bytes → Prop}
    {items : List α} {text other : Bytes}
    (h : IsScalar text) (k : Bracketed opening closing entry items other)
    (notQuote : opening ≠ quote) (notToken : isToken opening = false) (back rest : Bytes) :
    text ++ back ≠ other ++ rest := by
  obtain ⟨later, rfl⟩ := k.exists_cons
  obtain ⟨byte, later', rfl, first⟩ := h.exists_cons
  intro same
  rw [(List.cons.inj same).1] at first
  rcases first with quoted | token
  · exact notQuote quoted
  · rw [notToken] at token
    contradiction

theorem IsScalar.delimited {text : Bytes} (h : IsScalar text) : Delimited IsValue text := by
  intro other back rest k apart apartToo same
  cases k with
  | scalar k =>
      exact h.eq_of_append_eq k apart apartToo same
  | array k =>
      exact absurd same (h.append_ne_bracketed k (by decide) (by decide) _ _)
  | object k =>
      exact absurd same (h.append_ne_bracketed k (by decide) (by decide) _ _)

section Inside

variable {inside : Bytes → Prop}
  (value : ∀ {text}, inside text → IsValue text)
  (delimited : ∀ {text}, inside text → Delimited IsValue text)
include value delimited

theorem delimited_of_array
    {elements : List Bytes} {text : Bytes}
    (h : Bracketed openingBracket closingBracket (Padded inside) elements text) :
    Delimited IsValue text := by
  have opens {text : Bytes} (within : inside text) : Opens text := (value within).opens
  intro other back rest k apart apartToo same
  cases k with
  | scalar k =>
      exact absurd same.symm (k.append_ne_bracketed h (by decide) (by decide) _ _)
  | array k =>
      exact (Bracketed.eq_of_append_eq (Padded.stopped delimited opens IsValue.opens)
        (Padded.shown opens) (Padded.shown IsValue.opens) (by decide) (by decide) h k same).2
  | object k =>
      exact absurd same (h.append_ne k (by decide) _ _)

theorem delimited_of_object
    {members : List Member} {text : Bytes}
    (h : Bracketed openingBrace closingBrace (IsMember inside) members text) :
    Delimited IsValue text := by
  have opens {text : Bytes} (within : inside text) : Opens text := (value within).opens
  intro other back rest k apart apartToo same
  cases k with
  | scalar k =>
      exact absurd same.symm (k.append_ne_bracketed h (by decide) (by decide) _ _)
  | array k =>
      exact absurd same (h.append_ne k (by decide) _ _)
  | object k =>
      exact (Bracketed.eq_of_append_eq (IsMember.stopped delimited opens IsValue.opens)
        IsMember.shown IsMember.shown (by decide) (by decide) h k same).2

end Inside

/-- A value ends where nothing follows that could belong to it. -/
theorem IsValue.delimited {text : Bytes} (h : IsValue text) : Delimited IsValue text :=
  h.induct IsScalar.delimited
    (delimited_of_array (fun within => within.1) (fun within => within.2))
    (delimited_of_object (fun within => within.1) (fun within => within.2))

theorem stopped_isMember : Stopped (IsMember IsValue) (IsMember IsValue) :=
  IsMember.stopped IsValue.delimited IsValue.opens IsValue.opens

/-- The first member of an object is the one in front of the first comma behind it, and the others
are behind that comma. -/
theorem object_cons_iff
    {member : Member} {text rest : Bytes} (first : IsMember IsValue member text)
    (found : List Member) :
    Object found (openingBrace :: (text ++ comma :: (rest ++ [closingBrace]))) ↔
      ∃ others, found = member :: others ∧ Separated (IsMember IsValue) others rest := by
  rw [← Separated.append_cons_iff stopped_isMember first]
  have inner : text ++ comma :: (rest ++ [closingBrace]) =
      (text ++ comma :: rest) ++ [closingBrace] := by
    simp
  constructor
  · intro object
    generalize same : openingBrace :: (text ++ comma :: (rest ++ [closingBrace])) = whole at object
    cases object with
    | empty blank =>
        exact absurd (List.cons.inj same).2
          (first.shown.append_ne_space blank (by decide) _ [])
    | filled list =>
        rw [inner, List.cons.injEq] at same
        rw [List.append_cancel_right same.2]
        exact list
  · intro list
    rw [inner]
    exact .filled list

/-- An object has one list of members. -/
theorem Object.unique
    {members found : List Member} {text : Bytes}
    (h : Object members text) (k : Object found text) :
    members = found :=
  (Bracketed.eq_of_append_eq stopped_isMember IsMember.shown IsMember.shown (by decide) (by decide)
    h k (rfl : text ++ [] = text ++ [])).1

end Json
end HookRelay
