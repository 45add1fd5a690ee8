import IdlGen.Code.Module
import IdlGen.Proofs.QuotedTexts

/-!
Texts of set elements. Elements of different forms have different texts (`Form.text_inj`): a text
is read from its end, where the last bracket and what stands before it tell how it goes on.
-/
namespace IdlGen

inductive Bracket where
  | round
  | square
  | curly

def Bracket.left : Bracket → Char
  | round => '('
  | square => '['
  | curly => '\x7b'

def Bracket.right : Bracket → Char
  | round => ')'
  | square => ']'
  | curly => '\x7d'

inductive Form where
  | word (chars : List Char)
  /-- A text between two quotes, with a mark before them or nothing. -/
  | quote (head : List Char) (mark : Char) (body : List Char)
  /-- Items between brackets; a reference stands before them if there is no head. -/
  | node (head : Option (List Char)) (bracket : Bracket) (items : List Form) (comma : Bool)

namespace Form

mutual

def text (reference : List Char) : Form → List Char
  | word chars => chars
  | quote head mark body => head ++ [mark] ++ body ++ [mark]
  | node head bracket items comma =>
    head.getD reference ++ [bracket.left] ++ [',', ' '].intercalate (texts reference items) ++
      (if comma then [','] else []) ++ [bracket.right]

def texts (reference : List Char) : List Form → List (List Char)
  | [] => []
  | f :: rest => text reference f :: texts reference rest

end

theorem texts_eq_map (reference : List Char) (items : List Form) :
    texts reference items = items.map (text reference) := by
  induction items with
  | nil => rfl
  | cons f rest ih => rw [texts, ih, List.map_cons]

def isWordy (c : Char) : Bool := c.isAlphanum || c == '.' || c == '+' || c == '-'

def Escapes (mark : Char) (body : List Char) : Prop :=
  ∀ before after, body = before ++ mark :: after → before.getLast? = some '\\'

inductive Formed : Form → Prop where
  | word {chars : List Char} (nonempty : chars ≠ []) (wordy : ∀ c ∈ chars, isWordy c) :
      Formed (.word chars)
  | quote {head body : List Char} {mark : Char} (wordy : ∀ c ∈ head, isWordy c)
      (quotes : Code.Token.isQuote mark) (escapes : Escapes mark body) :
      Formed (.quote head mark body)
  | node {head : List Char} {bracket : Bracket} {items : List Form} {comma : Bool}
      (wordy : ∀ c ∈ head, isWordy c) (each : ∀ f ∈ items, Formed f)
      (apart : bracket = .round → comma = false → ∀ chars, items ≠ [.word chars]) :
      Formed (.node (some head) bracket items comma)
  | call {chars : List Char} (number : Formed (.word chars)) :
      Formed (.node none .round [.word chars] false)

variable {reference before before' : List Char} {f f' : Form}

theorem Formed.of_mem {head : Option (List Char)} {bracket : Bracket} {items : List Form}
    {comma : Bool} (formed : Formed (.node head bracket items comma)) (member : f ∈ items) :
    Formed f := by
  cases formed with
  | node _ each => exact each f member
  | call number => exact List.mem_singleton.mp member ▸ number

def openings : List Char := ['(', '[', '\x7b', ' ']

def Opens (before : List Char) : Prop := ∃ c ∈ openings, before.getLast? = some c

theorem left_mem (b : Bracket) : b.left ∈ openings := by cases b <;> decide

variable {c mark : Char} {body : List Char}

theorem opens_concat (before : List Char) (opening : c ∈ openings) :
    Opens (before ++ [c]) := ⟨c, opening, List.getLast?_concat⟩

theorem not_isWordy_of_mem (opening : c ∈ openings) : isWordy c = false := by
  have each : openings.all (!isWordy ·) := by decide
  simpa using List.all_eq_true.mp each c opening

inductive Ending where
  | word
  | quote
  | node
  /-- No element ends so. -/
  | other

def endingOf (c : Char) : Ending :=
  if Code.Token.isQuote c then .quote
  else if c = ')' ∨ c = ']' ∨ c = '\x7d' then .node
  else if isWordy c then .word
  else .other

def ending : Form → Ending
  | word _ => .word
  | quote .. => .quote
  | node .. => .node

theorem endingOf_wordy (wordy : isWordy c) : endingOf c = .word := by
  have quotes : Code.Token.isQuote c = false := by
    rw [Code.Token.isQuote, Bool.or_eq_false_iff, beq_eq_false_iff_ne, beq_eq_false_iff_ne]
    constructor <;> rintro rfl <;> cases wordy
  have right : ¬ (c = ')' ∨ c = ']' ∨ c = '\x7d') := by
    rintro (rfl | rfl | rfl) <;> cases wordy
  rw [endingOf, quotes, if_neg Bool.false_ne_true, if_neg right, if_pos wordy]

theorem Formed.getLast? (formed : Formed f) (reference : List Char) :
    ∃ c, (f.text reference).getLast? = some c ∧ endingOf c = f.ending := by
  cases formed with
  | word nonempty wordy =>
    exact ⟨_, List.getLast?_eq_some_getLast nonempty, endingOf_wordy (wordy _ (List.getLast_mem _))⟩
  | quote _ quotes => exact ⟨_, by rw [text, List.getLast?_concat], if_pos quotes⟩
  | @node _ b => exact ⟨_, by rw [text, List.getLast?_concat], by cases b <;> rfl⟩
  | call => exact ⟨_, by rw [text, List.getLast?_concat], rfl⟩

theorem Formed.concat_ne (formed : Formed f) (opening : c ∈ ',' :: openings) :
    before ++ [c] ≠ before' ++ f.text reference := by
  intro same
  obtain ⟨d, last, ends⟩ := formed.getLast? reference
  have whole := congrArg List.getLast? same
  rw [List.getLast?_concat, List.getLast?_append, last, Option.some_or] at whole
  cases whole
  have other : ∀ c ∈ ',' :: openings, endingOf c = .other := by
    simp [openings, endingOf, Code.Token.isQuote, isWordy]
  cases f <;> cases (other c opening).symm.trans ends

theorem Formed.ending_eq (formed : Formed f) (formed' : Formed f')
    (same : before ++ f.text reference = before' ++ f'.text reference) : f.ending = f'.ending := by
  obtain ⟨c, last, ends⟩ := formed.getLast? reference
  obtain ⟨d, last', ends'⟩ := formed'.getLast? reference
  have whole := congrArg List.getLast? same
  rw [List.getLast?_append, List.getLast?_append, last, last'] at whole
  cases whole
  exact ends.symm.trans ends'

theorem word_inj {chars chars' : List Char} (opens : Opens before) (opens' : Opens before')
    (wordy : ∀ c ∈ chars, isWordy c) (wordy' : ∀ c ∈ chars', isWordy c)
    (same : before ++ chars = before' ++ chars') : chars = chars' ∧ before = before' := by
  have longer {first second middle : List Char} (opens : Opens (first ++ middle))
      (wordy : ∀ c ∈ middle ++ second, isWordy c) : middle = [] := by
    by_contra filled
    obtain ⟨c, opening, last⟩ := opens
    rw [List.getLast?_append_of_ne_nil _ filled] at last
    have inWord := wordy c (List.mem_append_left _ (List.mem_of_getLast? last))
    rw [not_isWordy_of_mem opening] at inWord
    cases inWord
  rcases List.append_eq_append_iff.mp same with ⟨middle, rfl, rfl⟩ | ⟨middle, rfl, rfl⟩
  · rw [longer opens' wordy]
    simp
  · rw [longer opens wordy']
    simp

theorem quote_inj {body' : List Char} {mark' : Char} (clear : before.getLast? ≠ some '\\')
    (clear' : before'.getLast? ≠ some '\\') (escapes : Escapes mark body)
    (escapes' : Escapes mark' body')
    (same : before ++ [mark] ++ body ++ [mark] = before' ++ [mark'] ++ body' ++ [mark']) :
    mark = mark' ∧ body = body' ∧ before = before' := by
  obtain ⟨same, last⟩ := List.append_inj' same rfl
  cases last
  have longer {first body middle whole : List Char}
      (clear : (first ++ middle).getLast? ≠ some '\\') (escapes : Escapes mark whole)
      (parts : mark :: whole = middle ++ mark :: body) : middle = [] := by
    cases middle with
    | nil => rfl
    | cons c rest =>
      have slash := escapes rest body (List.cons.inj parts).2
      have filled : rest ≠ [] := by
        rintro rfl
        cases slash
      rw [List.getLast?_append_of_ne_nil _ (List.cons_ne_nil c rest),
        List.getLast?_cons_of_ne_nil filled] at clear
      exact absurd slash clear
  rw [List.append_assoc, List.append_assoc, List.singleton_append, List.singleton_append] at same
  rcases List.append_eq_append_iff.mp same with ⟨middle, rfl, parts⟩ | ⟨middle, rfl, parts⟩
  · obtain rfl := longer clear' escapes parts
    simpa using parts
  · obtain rfl := longer clear escapes' parts
    simpa using parts.symm

def Apart (reference : List Char) (f : Form) : Prop :=
  ∀ ⦃f' : Form⦄ ⦃before before' : List Char⦄, Formed f' → Opens before → Opens before' →
    before ++ f.text reference = before' ++ f'.text reference → f = f' ∧ before = before'

def leading (reference : List Char) (items : List Form) : List Char :=
  if items = [] then [] else [',', ' '].intercalate (texts reference items) ++ [','] ++ [' ']

theorem intercalate_concat (items : List Form) (f : Form) :
    [',', ' '].intercalate (texts reference (items ++ [f])) =
      leading reference items ++ f.text reference := by
  induction items with
  | nil => simp [leading, texts]
  | cons first rest ih =>
    rw [leading, if_neg (List.cons_ne_nil _ _)]
    simp only [texts_eq_map, List.cons_append, List.map_cons] at ih ⊢
    cases rest with
    | nil => simp
    | cons second others =>
      rw [leading, if_neg (List.cons_ne_nil _ _)] at ih
      simp only [texts_eq_map, List.cons_append, List.map_cons] at ih ⊢
      rw [List.intercalate_cons_cons, ih, List.intercalate_cons_cons]
      simp only [List.append_assoc]

theorem opens_leading (before : List Char) (b : Bracket) (items : List Form) :
    Opens (before ++ [b.left] ++ leading reference items) := by
  unfold leading
  split
  · rw [List.append_nil]
    exact opens_concat before (left_mem b)
  · rw [← List.append_assoc]
    exact opens_concat _ (by decide)

section
variable {b b' : Bracket} {items items' : List Form} {comma comma' : Bool}

theorem items_inj (formed : ∀ f ∈ items, Formed f) (apart : ∀ f ∈ items, Apart reference f)
    (formed' : ∀ f ∈ items', Formed f)
    (same : before ++ [b.left] ++ [',', ' '].intercalate (texts reference items) =
      before' ++ [b'.left] ++ [',', ' '].intercalate (texts reference items')) :
    items = items' ∧ before ++ [b.left] = before' ++ [b'.left] := by
  have space (b : Bracket) : b.left ≠ ' ' := by cases b <;> decide
  have opening (b : Bracket) := List.mem_cons_of_mem ',' (left_mem b)
  induction items using List.reverseRecOn generalizing items' with
  | nil =>
    rcases items'.eq_nil_or_concat' with rfl | ⟨front', f', rfl⟩
    · exact ⟨rfl, by simpa [texts] using same⟩
    · rw [intercalate_concat, ← List.append_assoc, texts, List.intercalate_nil,
        List.append_nil] at same
      exact absurd same ((formed' f' (by simp)).concat_ne (opening b))
  | append_singleton front f ih =>
    rcases items'.eq_nil_or_concat' with rfl | ⟨front', f', rfl⟩
    · rw [intercalate_concat, ← List.append_assoc, texts, List.intercalate_nil,
        List.append_nil] at same
      exact absurd same.symm ((formed f (by simp)).concat_ne (opening b'))
    · rw [intercalate_concat, intercalate_concat, ← List.append_assoc, ← List.append_assoc] at same
      obtain ⟨rfl, fronts⟩ := apart f (by simp) (formed' f' (by simp)) (opens_leading ..)
        (opens_leading ..) same
      clear same
      unfold leading at fronts
      by_cases empty : front = [] <;> by_cases empty' : front' = []
      · subst empty empty'
        exact ⟨rfl, by simpa using fronts⟩
      · rw [if_pos empty, if_neg empty', List.append_nil, ← List.append_assoc] at fronts
        exact absurd (List.append_inj' fronts rfl).2 (by simp [space])
      · rw [if_neg empty, if_pos empty', List.append_nil, ← List.append_assoc] at fronts
        exact absurd (List.append_inj' fronts rfl).2.symm (by simp [space])
      · rw [if_neg empty, if_neg empty'] at fronts
        simp only [← List.append_assoc] at fronts
        obtain ⟨rfl, left⟩ := @ih front' (fun g member => formed g (by simp [member]))
          (fun g member => apart g (by simp [member])) (fun g member => formed' g (by simp [member]))
          (List.append_cancel_right (List.append_cancel_right fronts))
        exact ⟨rfl, left⟩

theorem comma_inj (formed : ∀ f ∈ items, Formed f) (formed' : ∀ f ∈ items', Formed f)
    (same : before ++ [b.left] ++ [',', ' '].intercalate (texts reference items) ++
        (if comma then [','] else []) =
      before' ++ [b'.left] ++ [',', ' '].intercalate (texts reference items') ++
        (if comma' then [','] else [])) : comma = comma' := by
  have without {items : List Form} (formed : ∀ f ∈ items, Formed f) (first second : List Char)
      (b : Bracket) :
      second ++ [','] ≠ first ++ [b.left] ++ [',', ' '].intercalate (texts reference items) := by
    rcases items.eq_nil_or_concat' with rfl | ⟨front, f, rfl⟩
    · rw [texts, List.intercalate_nil, List.append_nil]
      intro same
      cases b <;> cases (List.append_inj' same rfl).2
    · rw [intercalate_concat, ← List.append_assoc]
      exact (formed f (by simp)).concat_ne (by decide)
  cases comma <;> cases comma'
  · rfl
  · rw [if_neg Bool.false_ne_true, if_pos rfl, List.append_nil] at same
    exact absurd same.symm (without formed _ _ _)
  · rw [if_neg Bool.false_ne_true, if_pos rfl, List.append_nil] at same
    exact absurd same (without formed' _ _ _)
  · rfl

theorem Formed.apart_node {head : Option (List Char)} (formed : Formed (.node head b items comma))
    (apart : ∀ f ∈ items, Apart reference f) : Apart reference (.node head b items comma) := by
  intro f' before before' formed' opens opens' same
  have ends := formed.ending_eq formed' same
  cases f' with
  | node head' b' items' comma' =>
    simp only [text, ← List.append_assoc] at same
    obtain ⟨inner, right⟩ := List.append_inj' same rfl
    obtain rfl : b = b' := by cases b <;> cases b' <;> first | rfl | cases right
    obtain rfl := comma_inj (fun f => formed.of_mem) (fun f => formed'.of_mem) inner
    obtain ⟨rfl, left⟩ := items_inj (fun f => formed.of_mem) apart (fun f => formed'.of_mem)
      (List.append_cancel_right inner)
    have heads := List.append_cancel_right left
    cases formed with
    | node wordy _ alone =>
      cases formed' with
      | node wordy' =>
        obtain ⟨rfl, rfl⟩ := word_inj opens opens' wordy wordy' heads
        exact ⟨rfl, rfl⟩
      | call => exact absurd rfl (alone rfl rfl _)
    | call =>
      cases formed' with
      | node _ _ alone => exact absurd rfl (alone rfl rfl _)
      | call => exact ⟨rfl, List.append_cancel_right heads⟩
  | _ => cases ends

end

theorem clear_of_opens {head : List Char} (opens : Opens before) (wordy : ∀ c ∈ head, isWordy c) :
    (before ++ head).getLast? ≠ some '\\' := by
  intro last
  rcases head.eq_nil_or_concat' with rfl | ⟨front, c, rfl⟩
  · obtain ⟨c, opening, ends⟩ := opens
    rw [List.append_nil, ends] at last
    cases last
    revert opening
    decide
  · rw [← List.append_assoc, List.getLast?_concat] at last
    cases last
    exact absurd (wordy '\\' (by simp)) (by decide)

theorem Formed.apart (formed : Formed f) : Apart reference f := by
  induction formed with
  | word nonempty wordy =>
    intro f' before before' formed' opens opens' same
    have ends := (Formed.word nonempty wordy).ending_eq formed' same
    cases formed' with
    | word nonempty' wordy' =>
      obtain ⟨rfl, rfl⟩ := word_inj opens opens' wordy wordy' same
      exact ⟨rfl, rfl⟩
    | _ => cases ends
  | quote wordy quotes escapes =>
    intro f' before before' formed' opens opens' same
    have ends := (Formed.quote wordy quotes escapes).ending_eq formed' same
    cases formed' with
    | quote wordy' _ escapes' =>
      simp only [text, ← List.append_assoc] at same
      obtain ⟨rfl, rfl, heads⟩ := quote_inj (clear_of_opens opens wordy)
        (clear_of_opens opens' wordy') escapes escapes' same
      obtain ⟨rfl, rfl⟩ := word_inj opens opens' wordy wordy' heads
      exact ⟨rfl, rfl⟩
    | _ => cases ends
  | node wordy each alone ih => exact (Formed.node wordy each alone).apart_node ih
  | call number ih => exact (Formed.call number).apart_node (List.forall_mem_singleton.mpr ih)

theorem text_inj (formed : Formed f) (formed' : Formed f')
    (same : f.text reference = f'.text reference) : f = f' := by
  have opens : Opens [' '] := opens_concat [] (by decide)
  exact (formed.apart formed' opens opens (congrArg ([' '] ++ ·) same)).1

theorem Escapes.append {first second : List Char} (left : Escapes mark first)
    (right : Escapes mark second) : Escapes mark (first ++ second) := by
  intro before after parts
  rcases List.append_eq_append_iff.mp parts with ⟨middle, rfl, inner⟩ | ⟨middle, rfl, inner⟩
  · have slash := right middle after inner
    have filled : middle ≠ [] := by
      rintro rfl
      cases slash
    rwa [List.getLast?_append_of_ne_nil _ filled]
  · cases middle with
    | nil => exact absurd (right [] after inner.symm) (by simp)
    | cons c rest =>
      obtain ⟨rfl, -⟩ := List.cons.inj inner
      exact left before rest rfl

theorem escapes_of_not_mem (without : mark ∉ body) : Escapes mark body := by
  rintro before after rfl
  exact absurd (by simp) without

theorem escapes_piece (quotes : Code.Token.isQuote mark) {wide : Bool} {piece : List Char}
    {code : Nat} (written : Code.Token.Piece mark wide piece code) : Escapes mark piece := by
  have slash : mark ≠ '\\' := by
    rintro rfl
    cases quotes
  -- What follows a backslash may be anything, also the mark.
  have second (c : Char) : Escapes mark ['\\', c] := by
    intro before after parts
    rcases before with _ | ⟨d, _ | ⟨d', rest⟩⟩
    · exact absurd (List.cons.inj parts).1.symm slash
    · exact (List.cons.inj parts).1 ▸ rfl
    · simp at parts
  cases written with
  | plain inner => exact escapes_of_not_mem (by simpa using inner.1.symm)
  | named => exact second _
  | @numeric letter width _ _ _ _ _ =>
    refine (second letter).append (escapes_of_not_mem fun member => ?_)
    exact (Code.Token.isInner_of_hexValue? quotes (Code.Token.hexValue?_of_mem_hexDigits member)).1 rfl

theorem escapes_flatMap {α : Type} {spell : α → List Char} {codes : List α}
    (each : ∀ a ∈ codes, Escapes mark (spell a)) : Escapes mark (codes.flatMap spell) := by
  induction codes with
  | nil => exact escapes_of_not_mem List.not_mem_nil
  | cons a rest ih =>
    obtain ⟨first, later⟩ := List.forall_mem_cons.mp each
    rw [List.flatMap_cons]
    exact first.append (ih later)

theorem isWordy_of_isDigit (digit : c.isDigit) : isWordy c := by
  simp [isWordy, Char.isAlphanum, digit]

theorem isWordy_toDigits (n : Nat) : ∀ c ∈ Nat.toDigits 10 n, isWordy c :=
  fun _ member => isWordy_of_isDigit (Nat.isDigit_of_mem_toDigits (by decide) (by decide) member)

theorem isWordy_exponentText (x : Int) : ∀ c ∈ Binary64.exponentText x, isWordy c := by
  have digits : ∀ c ∈ (if (Nat.toDigits 10 x.natAbs).length < 2 then '0' :: Nat.toDigits 10 x.natAbs
      else Nat.toDigits 10 x.natAbs), isWordy c := by
    split
    · exact List.forall_mem_cons.mpr ⟨rfl, isWordy_toDigits _⟩
    · exact isWordy_toDigits _
  exact List.forall_mem_cons.mpr ⟨by split <;> rfl, digits⟩

theorem isWordy_decimalText {digits : List Char} (all : ∀ c ∈ digits, isWordy c) (point : Int) :
    ∀ c ∈ Binary64.decimalText digits point, isWordy c := by
  have taken (count : Nat) : ∀ c ∈ digits.take count, isWordy c :=
    fun c member => all c (List.mem_of_mem_take member)
  have dropped (count : Nat) : ∀ c ∈ digits.drop count, isWordy c :=
    fun c member => all c (List.mem_of_mem_drop member)
  have zeros (count : Nat) : ∀ c ∈ List.replicate count '0', isWordy c :=
    fun c member => (List.eq_of_mem_replicate member) ▸ rfl
  have letters : isWordy '.' ∧ isWordy '0' ∧ isWordy 'e' := by decide
  have exponent := isWordy_exponentText (point - 1)
  unfold Binary64.decimalText
  split_ifs <;> grind

theorem decimalText_ne_nil (digits : List Char) (point : Int) :
    Binary64.decimalText digits point ≠ [] := by
  unfold Binary64.decimalText
  split_ifs <;> simp

theorem formed_integerText (n : Int) : Formed (.word (integerText n).toList) := by
  unfold integerText
  split
  · rw [String.toList_append, String.toList_ofList (l := Nat.toDigits _ _)]
    have sign : "-".toList.all isWordy := by decide
    exact .word (by simp)
      (List.forall_mem_append.mpr ⟨List.all_eq_true.mp sign, isWordy_toDigits _⟩)
  · rw [String.toList_ofList]
    exact .word (by simp) (isWordy_toDigits _)

theorem formed_text {x : Binary64} (finite : x.isFinite) : Formed (.word x.text.toList) := by
  cases x with
  | finite negative mantissa exponent =>
    have sign : (if negative then "-" else "").toList.all isWordy := by cases negative <;> decide
    have zero : "0.0".toList.all isWordy := by decide
    rw [List.all_eq_true] at sign zero
    simp only [Binary64.text]
    split
    · rw [String.toList_append]
      exact .word (by simp) (List.forall_mem_append.mpr ⟨sign, zero⟩)
    · rw [String.toList_append, String.toList_ofList]
      refine .word (by simp [decimalText_ne_nil]) (List.forall_mem_append.mpr ⟨sign, ?_⟩)
      refine isWordy_decimalText (fun c member => ?_) _
      obtain ⟨count, parts⟩ := Code.Token.exists_dropTrailingZeros
        (Nat.toDigits 10 (Binary64.shortest mantissa exponent).1)
      refine isWordy_toDigits (Binary64.shortest mantissa exponent).1 c ?_
      rw [parts]
      exact List.mem_append_left _ member
  | _ => cases finite

theorem exists_form_literalText {v : Value} (scalar : Expr.isScalar v) :
    ∃ f, Formed f ∧ ∀ reference, f.text reference = (Expr.literalText v).toList := by
  have word {w : String} (nonempty : w.toList ≠ []) (wordy : w.toList.all isWordy) :
      ∃ f, Formed f ∧ ∀ reference, f.text reference = w.toList :=
    ⟨_, .word nonempty (List.all_eq_true.mp wordy), fun _ => by rw [text]⟩
  have quotes := Code.Token.isQuote_quoteFor
  cases v with
  | null => exact word (by decide) (by decide)
  | bool b => cases b <;> exact word (by decide) (by decide)
  | int n => exact ⟨_, formed_integerText n, fun _ => by rw [text]; rfl⟩
  | float x =>
    by_cases finite : x.isFinite
    · exact ⟨_, formed_text finite, fun _ => by rw [text, Expr.literalText, if_pos finite]⟩
    · have plain : '"' ∉ x.text.toList := by
        rcases x with _ | negative | _
        · decide
        · cases negative <;> decide
        · exact absurd rfl finite
      refine ⟨.node (some ['f', 'l', 'o', 'a', 't']) .round [.quote [] '"' x.text.toList] false,
        .node (List.all_eq_true.mp rfl) ?_ (by simp), fun reference => ?_⟩
      · exact List.forall_mem_singleton.mpr (.quote (by simp) rfl (escapes_of_not_mem plain))
      · rw [Expr.literalText, if_neg finite]
        simp [text, texts, Bracket.left, Bracket.right]
  | text s =>
    let mark := Text.quoteFor s.toList
    refine ⟨.quote [] mark (s.toList.flatMap (Text.quoteChar mark)),
      .quote (by simp) (quotes _) (escapes_flatMap fun c _ => ?_), fun reference => ?_⟩
    · exact escapes_piece (quotes _) (Code.Token.piece_quoteChar (quotes _) c)
    · simp [text, Expr.literalText, Value.literal, Text.quoted, mark]
  | bytes data =>
    let mark := Text.quoteFor (data.map fun byte => Char.ofNat byte.toNat)
    refine ⟨.quote ['b'] mark (data.flatMap (Text.quoteByte mark)),
      .quote (List.all_eq_true.mp rfl) (quotes _) (escapes_flatMap fun c _ => ?_), fun reference => ?_⟩
    · exact escapes_piece (quotes _) (Code.Token.piece_quoteByte (quotes _) c).1
    · simp [text, Expr.literalText, Value.literal, Text.quotedBytes, mark]
  | _ => cases scalar

end Form
end IdlGen
