import IdlGen.Proofs.Numerals

/-!
Quoted texts as tokens. Pieces are kept together when the closing quote is looked for
(`bodyOf_flatMap`), so quoted texts and byte strings are read as themselves (`next?_quoted`,
`next?_quotedBytes`).
-/
namespace IdlGen.Code.Token

open Text

variable {n width : Nat} {c : Char} {rest body after : List Char}

theorem isSome_hexValue? (member : c ∈ Nat.toDigits 16 n) : (hexValue? c).isSome = true := by
  induction n using Nat.strongRecOn with
  | ind n ih =>
    by_cases small : n < 16
    · rw [Nat.toDigits_of_lt_base small, List.mem_singleton] at member
      rw [member, hexValue?_digitChar small]
      rfl
    · rw [Nat.toDigits_of_base_le (by decide) (by omega), List.mem_append,
        List.mem_singleton] at member
      rcases member with before | rfl
      · exact ih _ (Nat.div_lt_self (by omega) (by decide)) before
      · rw [hexValue?_digitChar (Nat.mod_lt n (by decide))]
        rfl

theorem length_hexDigits (pos : 0 < width) (fits : n < 16 ^ width) :
    (hexDigits width n).length = width := by
  have := (Nat.length_toDigits_le_iff (by decide) pos).mpr fits
  simp only [hexDigits, List.length_append, List.length_replicate]
  omega

theorem digitsIn_hexDigits (width n : Nat) : digitsIn 16 (hexDigits width n) = n := by
  rw [hexDigits, digitsIn_append, digitsIn_zeros, Nat.zero_mul, Nat.zero_add,
    digitsIn_toDigits (by decide) (by decide)]

theorem hexValue?_of_mem_hexDigits (member : c ∈ hexDigits width n) :
    (hexValue? c).isSome = true := by
  rcases List.mem_append.mp member with zero | digit
  · rw [(List.mem_replicate.mp zero).2]
    rfl
  · exact isSome_hexValue? digit

theorem ascii_of_hexValue? (digit : (hexValue? c).isSome = true) : c.toNat < 0x80 := by
  unfold hexValue? at digit
  split_ifs at digit with decimal small capital
  · exact Nat.lt_of_le_of_lt (UInt32.le_iff_toNat_le.mp decimal.2) (by decide)
  · exact Nat.lt_of_le_of_lt (UInt32.le_iff_toNat_le.mp small.2) (by decide)
  · exact Nat.lt_of_le_of_lt (UInt32.le_iff_toNat_le.mp capital.2) (by decide)
  · cases digit

def IsInner (quote c : Char) : Prop := c ≠ quote ∧ c ≠ '\\' ∧ c ≠ '\n'

instance (quote c : Char) : Decidable (IsInner quote c) := by
  unfold IsInner; infer_instance

/-- What stands between quotes for one code: a character, an escaped character, or the digits of
    the code. -/
inductive Piece (quote : Char) (wide : Bool) : List Char → Nat → Prop
  | plain {c : Char} : IsInner quote c → Piece quote wide [c] c.toNat
  | named {c image : Char} : namedEscapes.lookup c = some image → c ≠ '\n' →
      Piece quote wide ['\\', c] image.toNat
  | numeric {letter : Char} {width code : Nat} : namedEscapes.lookup letter = none →
      escapeWidth? wide letter = some width → code < 16 ^ width → code < 0x110000 →
      Piece quote wide ('\\' :: letter :: hexDigits width code) code

variable {quote : Char} {wide : Bool} {piece : List Char} {code : Nat}

theorem isInner_of_hexValue? (quotes : isQuote quote = true) (digit : (hexValue? c).isSome = true) :
    IsInner quote c := by
  refine ⟨?_, ?_, ?_⟩ <;> rintro rfl
  · rcases Bool.or_eq_true_iff.mp quotes with double | single
    · rw [beq_iff_eq.mp double] at digit
      cases digit
    · rw [beq_iff_eq.mp single] at digit
      cases digit
  · cases digit
  · cases digit

theorem bodyOf_inner (inner : IsInner quote c)
    (read : bodyOf quote false rest = some (body, after)) :
    bodyOf quote false (c :: rest) = some (c :: body, after) := by
  obtain ⟨open_, slash, line⟩ := inner
  rw [bodyOf]
  · simp [open_, line, read]
  · exact slash

theorem Piece.bodyOf_append (quotes : isQuote quote = true)
    (written : Piece quote wide piece code) (read : bodyOf quote false rest = some (body, after)) :
    bodyOf quote false (piece ++ rest) = some (piece ++ body, after) := by
  have inners {cs : List Char} (all : ∀ c ∈ cs, IsInner quote c) :
      bodyOf quote false (cs ++ rest) = some (cs ++ body, after) := by
    induction cs with
    | nil => exact read
    | cons c cs ih =>
      exact bodyOf_inner (all c (List.mem_cons_self ..))
        (ih fun d member => all d (List.mem_cons_of_mem _ member))
  cases written with
  | plain inner =>
    apply inners
    rintro c (_ | ⟨_, ⟨⟩⟩)
    exact inner
  | named => simp [bodyOf, read]
  | @numeric letter width _ _ _ _ _ =>
    have digits := inners fun c (member : c ∈ hexDigits width code) =>
      isInner_of_hexValue? quotes (hexValue?_of_mem_hexDigits member)
    simp [bodyOf, digits]

theorem escapeOf_named {image : Char} (known : namedEscapes.lookup c = some image)
    (noLine : c ≠ '\n') (rest : List Char) :
    escapeOf wide (c :: rest) = some ([image.toNat], rest) := by
  rw [escapeOf]
  · simp only [known]
  · exact noLine

theorem escapeOf_numeric {letter : Char} (unknown : namedEscapes.lookup letter = none)
    (width_ : escapeWidth? wide letter = some width) (fits : code < 16 ^ width)
    (small : code < 0x110000) (rest : List Char) :
    escapeOf wide (letter :: (hexDigits width code ++ rest)) = some ([code], rest) := by
  have pos : 0 < width := by
    unfold escapeWidth? at width_
    split at width_
    · cases width_
      decide
    · split at width_ <;> cases width_
      decide
    · split at width_ <;> cases width_
      decide
    · cases width_
  have noLine : letter ≠ '\n' := by
    rintro rfl
    cases wide <;> cases width_
  have length := length_hexDigits pos fits
  have digits : (hexDigits width code).all fun d => (hexValue? d).isSome :=
    List.all_eq_true.mpr fun d member => hexValue?_of_mem_hexDigits member
  rw [escapeOf]
  · simp only [unknown, width_, List.take_left' length, List.drop_left' length, length, digits,
      digitsIn_hexDigits, small, and_self, if_true]
  · exact noLine

theorem Piece.codesWithin_append (written : Piece quote wide piece code) (fuel : Nat)
    {codes : List Nat} (read : codesWithin wide fuel rest = some codes) :
    codesWithin wide (fuel + 1) (piece ++ rest) = some (code :: codes) := by
  cases written with
  | plain inner =>
    rw [List.singleton_append, codesWithin, read]
    · rfl
    · exact inner.2.1
  | named known noLine =>
    simp only [List.cons_append, List.nil_append, codesWithin, escapeOf_named known noLine,
      Option.bind_eq_bind, Option.bind_some, read]
    rfl
  | numeric unknown width fits small =>
    simp only [List.cons_append, codesWithin, escapeOf_numeric unknown width fits small,
      Option.bind_eq_bind, Option.bind_some, read]
    rfl

theorem isQuote_quoteFor (chars : List Char) : isQuote (quoteFor chars) = true := by
  unfold quoteFor
  split <;> rfl

/-- A character with an escape of its own is a piece, and one without is neither a backslash nor
    the end of a line. -/
theorem namedEscape?_cases (quote : Char) (wide : Bool) (c : Char) :
    (∃ escape, namedEscape? c = some escape ∧ Piece quote wide escape c.toNat ∧
      ∀ d ∈ escape, d.toNat < 0x80) ∨ namedEscape? c = none ∧ c ≠ '\\' ∧ c ≠ '\n' := by
  unfold namedEscape?
  split_ifs with slash line back tab
  · exact .inl ⟨_, rfl, by rw [slash]; exact .named rfl (by decide), by simp⟩
  · exact .inl ⟨_, rfl, line ▸ .named (c := 'n') rfl (by decide), by simp⟩
  · exact .inl ⟨_, rfl, back ▸ .named (c := 'r') rfl (by decide), by simp⟩
  · exact .inl ⟨_, rfl, tab ▸ .named (c := 't') rfl (by decide), by simp⟩
  · exact .inr ⟨rfl, slash, line⟩

theorem toNat_ofByte (byte : UInt8) : (Char.ofNat byte.toNat).toNat = byte.toNat := by
  have small := byte.toNat_lt
  rw [Char.ofNat, dif_pos (.inl (by omega))]
  rfl

theorem eq_of_isQuote (quotes : isQuote quote = true) : quote = '"' ∨ quote = '\'' :=
  (Bool.or_eq_true_iff.mp quotes).imp beq_iff_eq.mp beq_iff_eq.mp

section
variable (quotes : isQuote quote = true)
include quotes

theorem Piece.head_ne (written : Piece quote wide piece code) :
    ∃ c more, piece = c :: more ∧ c ≠ quote := by
  have slash : '\\' ≠ quote := by
    rintro rfl
    cases quotes
  cases written with
  | plain inner => exact ⟨_, _, rfl, inner.1⟩
  | named => exact ⟨_, _, rfl, slash⟩
  | numeric => exact ⟨_, _, rfl, slash⟩

variable {α : Type} {spell : α → List Char} {codeOf : α → Nat} {items : List α}

section
variable (pieces : ∀ a ∈ items, Piece quote wide (spell a) (codeOf a))
include pieces

theorem bodyOf_flatMap (rest : List Char) :
    bodyOf quote false (items.flatMap spell ++ quote :: rest) =
      some (items.flatMap spell, rest) := by
  induction items with
  | nil =>
    have noSlash : quote ≠ '\\' := by
      rintro rfl
      cases quotes
    have noLine : quote ≠ '\n' := by
      rintro rfl
      cases quotes
    rw [List.flatMap_nil, List.nil_append, bodyOf]
    · simp [noLine]
    · exact noSlash
  | cons a items ih =>
    rw [List.flatMap_cons, List.append_assoc]
    exact (pieces a (List.mem_cons_self ..)).bodyOf_append quotes
      (ih fun b member => pieces b (List.mem_cons_of_mem _ member))

theorem codesWithin_flatMap (fuel : Nat) (enough : (items.flatMap spell).length ≤ fuel) :
    codesWithin wide fuel (items.flatMap spell) = some (items.map codeOf) := by
  induction items generalizing fuel with
  | nil => cases fuel <;> rfl
  | cons a items ih =>
    have written := pieces a (List.mem_cons_self ..)
    obtain ⟨c, more, shape, -⟩ := written.head_ne quotes
    rw [List.flatMap_cons, List.length_append, shape, List.length_cons] at enough
    obtain ⟨fuel, rfl⟩ := Nat.exists_eq_succ_of_ne_zero (show fuel ≠ 0 by omega)
    exact written.codesWithin_append fuel
      (ih (fun b member => pieces b (List.mem_cons_of_mem _ member)) fuel (by omega))

theorem codesOf_flatMap :
    codesOf false wide (items.flatMap spell) = some (items.map codeOf) :=
  codesWithin_flatMap quotes pieces _ le_rfl

theorem quotedOf_flatMap (ends : Ends rest) {marker : String} {token : Token}
    (read : ofBody marker (items.flatMap spell) = some token) :
    quotedOf marker quote (items.flatMap spell ++ quote :: rest) = some (token, rest) := by
  have single : [quote, quote].isPrefixOf (items.flatMap spell ++ quote :: rest) = false := by
    cases items with
    | nil =>
      cases rest with
      | nil => simp
      | cons c rest =>
        have : quote ≠ c := by
          rintro rfl
          rw [(ends _ rfl).2] at quotes
          cases quotes
        simp [List.isPrefixOf, this]
    | cons a items =>
      obtain ⟨c, more, shape, other⟩ := (pieces a (List.mem_cons_self ..)).head_ne quotes
      simp [List.isPrefixOf, shape, Ne.symm other]
  simp only [quotedOf, single, Bool.false_eq_true, if_false, bodyOf_flatMap quotes pieces,
    Option.bind_eq_bind, Option.bind_some, read]
  rfl

end

theorem lookup_quote :
    namedEscapes.lookup quote = some quote ∧ quote ≠ '\n' := by
  rcases eq_of_isQuote quotes with rfl | rfl <;> decide

theorem ascii_of_isQuote : quote.toNat < 0x80 := by
  rcases eq_of_isQuote quotes with rfl | rfl <;> decide

theorem piece_quoteChar (c : Char) :
    Piece quote true (quoteChar quote c) c.toNat := by
  unfold quoteChar
  by_cases same : c = quote
  · rw [if_pos same, same]
    exact .named (lookup_quote quotes).1 (lookup_quote quotes).2
  · rw [if_neg same]
    rcases namedEscape?_cases quote true c with ⟨escape, known, piece, -⟩ | ⟨none, slash, line⟩
    · rw [known]
      exact piece
    · rw [none]
      simp only
      split_ifs
      · exact .plain ⟨same, slash, line⟩
      · have small : c.toNat < 0x110000 := by
          have := c.valid
          unfold UInt32.isValidChar Nat.isValidChar at this
          change c.val.toNat < _
          omega
        unfold numericEscape
        split_ifs with byte short
        · exact .numeric rfl rfl byte small
        · exact .numeric rfl rfl short small
        · exact .numeric rfl rfl (by omega) small

theorem piece_quoteByte (byte : UInt8) :
    Piece quote false (quoteByte quote byte) byte.toNat ∧
      ∀ c ∈ quoteByte quote byte, c.toNat < 0x80 := by
  have code := toNat_ofByte byte
  have small := byte.toNat_lt
  unfold quoteByte
  generalize Char.ofNat byte.toNat = c at code
  rw [← code] at small ⊢
  by_cases same : c = quote
  · rw [if_pos same, same]
    refine ⟨.named (lookup_quote quotes).1 (lookup_quote quotes).2, ?_⟩
    rintro d (_ | ⟨_, _ | ⟨_, ⟨⟩⟩⟩)
    · decide
    · exact ascii_of_isQuote quotes
  · rw [if_neg same]
    rcases namedEscape?_cases quote false c with ⟨escape, known, piece, ascii⟩ | ⟨none, slash, line⟩
    · rw [known]
      exact ⟨piece, ascii⟩
    · rw [none]
      simp only
      split_ifs with printable
      · refine ⟨.plain ⟨same, slash, line⟩, ?_⟩
        rintro d (_ | ⟨_, ⟨⟩⟩)
        exact printable.2.trans (by decide)
      · refine ⟨.numeric rfl rfl small (by omega), ?_⟩
        rintro d (_ | ⟨_, _ | ⟨_, digit⟩⟩)
        · decide
        · decide
        · exact ascii_of_hexValue? (hexValue?_of_mem_hexDigits digit)

theorem next?_of_isQuote (rest : List Char) :
    next? (quote :: rest) = quotedOf "" quote rest := by
  rcases eq_of_isQuote quotes with rfl | rfl <;> rfl

theorem next?_of_byteQuote (rest : List Char) :
    next? ('b' :: quote :: rest) = quotedOf "b" quote rest := by
  have other : isWordChar quote = false := by
    rcases eq_of_isQuote quotes with rfl | rfl <;> rfl
  have letter : isWordChar 'b' = true := rfl
  have word : ('b' :: quote :: rest).takeWhile isWordChar = ['b'] := by
    simp [letter, other]
  have after : ('b' :: quote :: rest).dropWhile isWordChar = quote :: rest := by
    simp [letter, other]
  have marker : String.ofList ((String.ofList ['b']).toList.map Char.toLower) = "b" := by
    rw [String.toList_ofList]
    rfl
  change wordOf ('b' :: quote :: rest) = _
  simp only [wordOf, word, after, marker, quotes]
  rfl

theorem next?_pieces {s : String} {spell : Char → List Char}
    (pieces : ∀ c ∈ s.toList, Piece quote true (spell c) c.toNat) (ends : Ends rest) :
    next? (quote :: (s.toList.flatMap spell ++ quote :: rest)) = some (.text s, rest) := by
  have read : ofBody "" (s.toList.flatMap spell) = some (.text s) := by
    have unmarked (body : List Char) : ofBody "" body = (codesOf false true body).map
        fun codes => .text (String.ofList (codes.map Char.ofNat)) := rfl
    have chars : (s.toList.map Char.toNat).map Char.ofNat = s.toList := by
      simp [Function.comp_def]
    rw [unmarked, codesOf_flatMap quotes pieces, Option.map_some, chars, String.ofList_toList]
  rw [next?_of_isQuote quotes]
  exact quotedOf_flatMap quotes pieces ends read

theorem next?_plain {s : String} (inner : ∀ c ∈ s.toList, IsInner quote c) (ends : Ends rest) :
    next? (quote :: (s.toList ++ quote :: rest)) = some (.text s, rest) := by
  have read := next?_pieces quotes (fun c member => .plain (inner c member)) ends
  rwa [List.flatMap_singleton'] at read

end

theorem next?_quoted (s : String) (ends : Ends rest) :
    next? ((quoted s).toList ++ rest) = some (.text s, rest) := by
  have quotes := isQuote_quoteFor s.toList
  rw [quoted, String.toList_ofList, List.cons_append, List.append_assoc, List.singleton_append]
  exact next?_pieces quotes (fun c _ => piece_quoteChar quotes c) ends

theorem next?_quotedBytes (data : List UInt8) (ends : Ends rest) :
    next? ((quotedBytes data).toList ++ rest) = some (.bytes data, rest) := by
  set quote := quoteFor (data.map fun byte => Char.ofNat byte.toNat) with chosen
  have quotes : isQuote quote = true := isQuote_quoteFor _
  have pieces : ∀ byte ∈ data, Piece quote false (quoteByte quote byte) byte.toNat :=
    fun byte _ => (piece_quoteByte quotes byte).1
  have read : ofBody "b" (data.flatMap (quoteByte quote)) = some (.bytes data) := by
    have marked (body : List Char) : ofBody "b" body =
        if body.all fun c => decide (c.toNat < 0x80) then
          (codesOf false false body).map fun codes => .bytes (codes.map Nat.toUInt8)
        else none := rfl
    have ascii : (data.flatMap (quoteByte quote)).all fun c => decide (c.toNat < 0x80) := by
      rw [List.all_eq_true]
      intro c member
      obtain ⟨byte, -, member⟩ := List.mem_flatMap.mp member
      exact decide_eq_true ((piece_quoteByte quotes byte).2 c member)
    have bytes : (data.map UInt8.toNat).map Nat.toUInt8 = data := by
      simp [Function.comp_def]
    rw [marked, if_pos ascii, codesOf_flatMap quotes pieces, Option.map_some, bytes]
  rw [quotedBytes, String.toList_ofList, ← chosen, List.cons_append, List.cons_append,
    List.append_assoc, List.singleton_append, next?_of_byteQuote quotes]
  exact quotedOf_flatMap quotes pieces ends read

end IdlGen.Code.Token
