import IdlGen.Proofs.Programs
import Mathlib.Data.Bool.AllAny

/-!
Docstrings as modules begin with them. The path in a docstring is read back exactly if it has no
escapes, no three quotes in a row and no other line ends than line feeds (`docstring_read_iff`).
-/
namespace IdlGen

open Outcome

variable {rest body text cs : List Char} {o : Output} {path : Value} {unit : Named}

namespace Code.Token

def startsEscape (c : Char) : Bool :=
  c == '\n' || (namedEscapes.lookup c).isSome || (escapeWidth? true c).isSome || isOctal c ||
    c == 'N'

/-- Whether a text stands for itself between tripled quotes, if other characters follow it. -/
def isVerbatim : List Char → Bool
  | [] => true
  | c :: rest =>
    c != '\x00' && c != '\r' && !(c == '\\' && rest.head?.any startsEscape) &&
      !(c == '"' && ['"', '"'].isPrefixOf rest) && isVerbatim rest

variable {c : Char} {after : List Char} {codes : List Nat} {fuel : Nat}

theorem isVerbatim_cons :
    isVerbatim (c :: rest) ↔ (c ≠ '\x00' ∧ c ≠ '\r') ∧
      (c = '\\' → rest.head?.any startsEscape = false) ∧
      (c = '"' → ['"', '"'].isPrefixOf rest = false) ∧ isVerbatim rest := by
  simp only [isVerbatim, Bool.and_eq_true, bne_iff_ne, Bool.not_eq_true', Bool.and_eq_false_iff,
    beq_eq_false_iff_ne, imp_iff_not_or, ne_eq, and_assoc]

theorem clean_of_isVerbatim (verbatim : isVerbatim text) : ∀ c ∈ text, c ≠ '\x00' ∧ c ≠ '\r' := by
  induction text with
  | nil => simp
  | cons c rest ih =>
    obtain ⟨first, -, -, later⟩ := isVerbatim_cons.mp verbatim
    exact List.forall_mem_cons.mpr ⟨first, ih later⟩

theorem escapeOf_unknown (unknown : startsEscape c = false) (rest : List Char) :
    escapeOf true (c :: rest) = some (['\\'.toNat, c.toNat], rest) := by
  simp only [startsEscape, Bool.or_eq_false_iff, Option.isSome_eq_false_iff,
    Option.isNone_iff_eq_none, beq_eq_false_iff_ne] at unknown
  obtain ⟨⟨⟨⟨line, named⟩, width⟩, octal⟩, name⟩ := unknown
  rw [escapeOf]
  · simp [named, width, octal, name]
  · exact fun same => line same

theorem escapeOf_known (known : startsEscape c = true)
    (read : escapeOf true (c :: after) = some (codes, rest)) :
    codes.length + rest.length ≤ after.length + 1 := by
  by_cases line : c = '\n'
  · subst line
    cases read
    simp
  rw [escapeOf] at read
  · cases named : namedEscapes.lookup c with
    | some image =>
      rw [named] at read
      cases read
      simp [Nat.add_comm]
    | none =>
      cases width : escapeWidth? true c with
      | some n =>
        simp only [named, width, Option.ite_none_right_eq_some] at read
        obtain ⟨-, -, same⟩ := read
        cases same
        simp [Nat.add_comm]
      | none =>
        by_cases octal : isOctal c
        · simp only [named, width, octal, if_true, Option.some.injEq, Prod.mk.injEq] at read
          obtain ⟨rfl, rfl⟩ := read
          simp [octal]
          omega
        · simp only [named, width, octal, Bool.false_eq_true, if_false] at read
          simp [startsEscape, line, named, width, octal] at known
          simp [known] at read
  · exact fun same => line same

theorem codesWithin_cons (plain : c ≠ '\\') (fuel : Nat) (rest : List Char) :
    codesWithin true (fuel + 1) (c :: rest) =
      (codesWithin true fuel rest).map (c.toNat :: ·) := by
  rw [codesWithin]
  · cases codesWithin true fuel rest <;> rfl
  · exact fun same => plain same

theorem length_codesWithin_le (read : codesWithin true fuel cs = some codes) :
    codes.length ≤ cs.length := by
  induction fuel generalizing cs codes with
  | zero =>
    cases read
    simp
  | succ fuel ih =>
    match cs with
    | [] =>
      cases read
      simp
    | c :: rest =>
      by_cases slash : c = '\\'
      · subst slash
        rw [codesWithin] at read
        obtain ⟨⟨escaped, after⟩, escape, read⟩ := Option.bind_eq_some_iff.mp read
        obtain ⟨others, later, same⟩ := Option.bind_eq_some_iff.mp read
        cases same
        have below := ih later
        match rest with
        | [] => cases escape
        | d :: rest =>
          cases known : startsEscape d with
          | true =>
            have shorter := escapeOf_known known escape
            simp only [List.length_append, List.length_cons]
            omega
          | false =>
            rw [escapeOf_unknown known] at escape
            cases escape
            simpa using below
      · rw [codesWithin_cons slash] at read
        obtain ⟨others, later, rfl⟩ := Option.map_eq_some_iff.mp read
        simpa using ih later

theorem bodyOf_escape (c : Char) (rest : List Char) :
    bodyOf '"' true ('\\' :: c :: rest) =
      (bodyOf '"' true rest).map fun read => ('\\' :: c :: read.1, read.2) := rfl

theorem bodyOf_cons (plain : c ≠ '\\') (rest : List Char) :
    bodyOf '"' true (c :: rest) =
      if c = '"' ∧ ['"', '"'].isPrefixOf rest then some ([], rest.drop 2)
      else (bodyOf '"' true rest).map fun read => (c :: read.1, read.2) := by
  rw [bodyOf]
  · simp
  · exact fun same => plain same

theorem isPrefixOf_append (ends : ∀ c ∈ rest.getLast?, c ≠ '"') (filled : rest ≠ [])
    (more : List Char) : ['"', '"'].isPrefixOf (rest ++ more) = ['"', '"'].isPrefixOf rest := by
  match rest with
  | [] => exact absurd rfl filled
  | [c] =>
    have other : c ≠ '"' := ends c rfl
    simp [List.isPrefixOf, Ne.symm other]
  | c :: d :: rest => simp [List.isPrefixOf]

theorem read_of_isVerbatim (after : List Char) (verbatim : isVerbatim body)
    (ends : ∀ c ∈ body.getLast?, c ≠ '"' ∧ c ≠ '\\') (enough : body.length ≤ fuel) :
    bodyOf '"' true (body ++ ('"' :: '"' :: '"' :: after)) = some (body, after) ∧
      codesWithin true fuel body = some (body.map Char.toNat) := by
  induction fuel generalizing body with
  | zero =>
    rw [List.eq_nil_of_length_eq_zero (Nat.le_zero.mp enough)]
    exact ⟨rfl, rfl⟩
  | succ fuel ih =>
    match body with
    | [] => exact ⟨rfl, rfl⟩
    | [c] =>
      obtain ⟨quote, slash⟩ := ends c rfl
      rw [codesWithin_cons slash, List.singleton_append, bodyOf_cons slash, if_neg (quote ·.1)]
      exact ⟨rfl, by cases fuel <;> rfl⟩
    | c :: d :: rest =>
      obtain ⟨-, escape, quotes, later⟩ := isVerbatim_cons.mp verbatim
      simp only [List.length_cons] at enough
      rw [List.getLast?_cons_cons] at ends
      by_cases slash : c = '\\'
      · subst slash
        have ends : ∀ c ∈ rest.getLast?, c ≠ '"' ∧ c ≠ '\\' := by
          cases rest with
          | nil => simp
          | cons e rest => rwa [List.getLast?_cons_cons] at ends
        obtain ⟨body, codes⟩ := ih (isVerbatim_cons.mp later).2.2.2 ends (by omega)
        rw [List.cons_append, List.cons_append, bodyOf_escape, body, codesWithin,
          escapeOf_unknown (escape rfl)]
        exact ⟨rfl, by simp [codes]⟩
      · have apart : ¬(c = '"' ∧ ['"', '"'].isPrefixOf (d :: rest ++ ('"' :: '"' :: '"' :: after))) := by
          rintro ⟨quote, starts⟩
          rw [isPrefixOf_append (fun c last => (ends c last).1) (List.cons_ne_nil _ _),
            quotes quote] at starts
          cases starts
        obtain ⟨body, codes⟩ := ih later ends (by simpa using enough)
        rw [List.cons_append, bodyOf_cons slash, if_neg apart, body, codesWithin_cons slash, codes]
        exact ⟨rfl, rfl⟩

theorem isVerbatim_of_read
    (closes : bodyOf '"' true (body ++ ('"' :: '"' :: '"' :: after)) = some (body, after))
    (read : codesWithin true fuel body = some codes) (full : body.length ≤ codes.length)
    (clean : ∀ c ∈ body, c ≠ '\x00' ∧ c ≠ '\r') :
    isVerbatim body ∧ codes = body.map Char.toNat := by
  induction fuel generalizing body codes with
  | zero =>
    cases read
    rw [List.eq_nil_of_length_eq_zero (Nat.le_zero.mp full)]
    exact ⟨rfl, rfl⟩
  | succ fuel ih =>
    match body with
    | [] =>
      cases read
      exact ⟨rfl, rfl⟩
    | c :: rest =>
      obtain ⟨first, others⟩ := List.forall_mem_cons.mp clean
      rw [isVerbatim_cons, and_iff_right first]
      by_cases slash : c = '\\'
      · subst slash
        match rest with
        | [] =>
          rw [List.singleton_append, bodyOf_escape] at closes
          obtain ⟨inner, -, same⟩ := Option.map_eq_some_iff.mp closes
          cases congrArg Prod.fst same
        | d :: rest =>
          rw [List.cons_append, List.cons_append, bodyOf_escape] at closes
          obtain ⟨⟨inner, ended⟩, closes, same⟩ := Option.map_eq_some_iff.mp closes
          simp only [Prod.mk.injEq, List.cons.injEq, true_and] at same
          obtain ⟨rfl, rfl⟩ := same
          rw [codesWithin] at read
          obtain ⟨⟨escaped, last⟩, escape, read⟩ := Option.bind_eq_some_iff.mp read
          obtain ⟨more, later, same⟩ := Option.bind_eq_some_iff.mp read
          cases same
          have below := length_codesWithin_le later
          cases known : startsEscape d with
          | true =>
            have shorter := escapeOf_known known escape
            simp only [List.length_append, List.length_cons] at full
            omega
          | false =>
            rw [escapeOf_unknown known] at escape
            cases escape
            obtain ⟨second, others⟩ := List.forall_mem_cons.mp others
            obtain ⟨verbatim, rfl⟩ := ih closes later (by simpa using full) others
            have plain {e : Char} (isKnown : startsEscape e = true) : d ≠ e := by
              rintro rfl
              rw [known] at isKnown
              cases isKnown
            have whole : isVerbatim (d :: inner) := isVerbatim_cons.mpr
              ⟨second, fun same => absurd same (plain (by decide)),
                fun same => absurd same (plain (by decide)), verbatim⟩
            exact ⟨⟨fun _ => known, fun same => absurd same (by decide), whole⟩, rfl⟩
      · rw [List.cons_append, bodyOf_cons slash] at closes
        rw [codesWithin_cons slash] at read
        obtain ⟨more, later, rfl⟩ := Option.map_eq_some_iff.mp read
        split at closes
        · cases closes
        · next apart =>
          obtain ⟨⟨inner, ended⟩, closes, same⟩ := Option.map_eq_some_iff.mp closes
          simp only [Prod.mk.injEq, List.cons.injEq, true_and] at same
          obtain ⟨rfl, rfl⟩ := same
          obtain ⟨verbatim, rfl⟩ := ih closes later (by simpa using full) others
          refine ⟨⟨fun same => absurd same slash, fun quote => ?_, verbatim⟩, rfl⟩
          rw [← Bool.not_eq_true, List.isPrefixOf_iff_prefix]
          intro starts
          exact apart ⟨quote, List.isPrefixOf_iff_prefix.mpr (starts.trans (List.prefix_append _ _))⟩

theorem lineFeeds_return (alone : ∀ after, rest ≠ '\n' :: after) :
    lineFeeds ('\r' :: rest) = '\n' :: lineFeeds rest := by
  rw [lineFeeds]
  exact alone

theorem lineFeeds_cons (other : c ≠ '\r') (rest : List Char) :
    lineFeeds (c :: rest) = c :: lineFeeds rest := by
  rw [lineFeeds]
  · exact fun _ same _ => other same
  · exact fun same => other same

theorem lineFeeds_append (other : c ≠ '\n') (cs rest : List Char) :
    lineFeeds (cs ++ c :: rest) = lineFeeds cs ++ lineFeeds (c :: rest) := by
  induction cs using lineFeeds.induct with
  | case1 => rfl
  | case2 cs ih => simp [lineFeeds, ih]
  | case3 cs alone ih =>
    have still (after : List Char) : cs ++ c :: rest ≠ '\n' :: after := by
      cases cs with
      | nil => exact fun same => other (List.cons.inj same).1
      | cons d cs => exact fun same => alone cs (by rw [(List.cons.inj same).1])
    rw [List.cons_append, lineFeeds_return still, ih, lineFeeds_return alone, List.cons_append]
  | case4 d cs _ plain ih =>
    rw [List.cons_append, lineFeeds_cons plain, ih, lineFeeds_cons plain, List.cons_append]

theorem lineFeeds_of_not_mem (free : '\r' ∉ cs) : lineFeeds cs = cs := by
  induction cs with
  | nil => rfl
  | cons c rest ih =>
    rw [List.mem_cons, not_or] at free
    rw [lineFeeds_cons (Ne.symm free.1), ih free.2]

theorem lineFeeds_le (cs : List Char) :
    (∀ c ∈ lineFeeds cs, c ≠ '\r' ∧ c ∈ '\n' :: cs) ∧ (lineFeeds cs).length ≤ cs.length := by
  induction cs using lineFeeds.induct with
  | case1 => simp [lineFeeds]
  | case2 cs ih => grind [lineFeeds]
  | case3 cs alone ih =>
    rw [lineFeeds_return alone]
    grind
  | case4 d cs _ plain ih =>
    rw [lineFeeds_cons plain]
    grind

end Code.Token

namespace Output

open Code Token

def remainder (o : Output) : String := Text.join "\n" (o.lines.drop 1) ++ "\n"

/-- A module can be read, its first token is its docstring, and what comes next is the rest of
    the module. -/
def OpensWithDocstring (o : Output) : Prop :=
  '\x00' ∉ o.docstring.toList ∧ Token.next? (lineFeeds o.render.toList) =
    some (.text o.docstring, '\n' :: lineFeeds o.remainder.toList)

theorem toList_render (o : Output) : o.render.toList =
    '"' :: '"' :: '"' :: (o.docstring.toList ++
      '"' :: '"' :: '"' :: '\n' :: o.remainder.toList) := by
  simp [render, remainder, lines, Text.join, String.toList_intercalate]

theorem next?_tripled_eq_some {text : String} :
    Token.next? ('"' :: '"' :: '"' :: cs) = some (.text text, rest) ↔
      ∃ body codes, bodyOf '"' true cs = some (body, rest) ∧
        codesWithin true body.length body = some codes ∧
        text = String.ofList (codes.map Char.ofNat) := by
  have opened : Token.next? ('"' :: '"' :: '"' :: cs) =
      (bodyOf '"' true cs).bind fun read => (ofBody "" read.1).bind fun token =>
        some (token, read.2) := rfl
  have plain (body : List Char) : ofBody "" body = (codesWithin true body.length body).map
      fun codes => .text (String.ofList (codes.map Char.ofNat)) := rfl
  simp only [opened, plain, Option.bind_eq_some_iff, Option.map_eq_some_iff]
  constructor
  · rintro ⟨⟨body, after⟩, read, token, ⟨codes, known, rfl⟩, same⟩
    cases same
    exact ⟨body, codes, read, known, rfl⟩
  · rintro ⟨body, codes, read, known, rfl⟩
    exact ⟨(body, rest), read, _, ⟨codes, known, rfl⟩, rfl⟩

theorem eq_of_bodyOf (read : bodyOf '"' true cs = some (body, rest)) :
    cs = body ++ '"' :: '"' :: '"' :: rest := by
  fun_induction bodyOf '"' true cs generalizing body with
  | case1 => cases read
  | case2 => cases read
  | case3 c cs ih | case6 c cs _ _ _ ih =>
    obtain ⟨⟨inner, ended⟩, closes, same⟩ := Option.map_eq_some_iff.mp read
    cases same
    rw [ih closes]
    rfl
  | case4 => cases read
  | case5 c cs _ _ closes =>
    simp only [Bool.not_true, Bool.false_or, Bool.and_eq_true, beq_iff_eq,
      List.isPrefixOf_iff_prefix] at closes
    obtain ⟨rfl, after, rfl⟩ := closes
    cases read
    rfl

/-- A docstring that does not end with a quote or a backslash is read back exactly if it stands
    for itself. -/
theorem opensWithDocstring_iff (ends : ∀ c ∈ o.docstring.toList.getLast?, c ≠ '"' ∧ c ≠ '\\') :
    o.OpensWithDocstring ↔ isVerbatim o.docstring.toList := by
  have chars : lineFeeds o.render.toList = '"' :: '"' :: '"' :: (lineFeeds o.docstring.toList ++
      '"' :: '"' :: '"' :: '\n' :: lineFeeds o.remainder.toList) := by
    rw [toList_render]
    repeat rw [lineFeeds_cons (by decide)]
    rw [lineFeeds_append (by decide)]
    repeat rw [lineFeeds_cons (by decide)]
  rw [OpensWithDocstring, chars, next?_tripled_eq_some]
  constructor
  · rintro ⟨filled, body, codes, read, known, same⟩
    cases List.append_cancel_right (eq_of_bodyOf read)
    have whole : o.docstring.toList = codes.map Char.ofNat := by
      rw [same, String.toList_ofList]
    obtain ⟨clean, shorter⟩ := lineFeeds_le o.docstring.toList
    have full : (lineFeeds o.docstring.toList).length ≤ codes.length := by
      simpa only [whole, List.length_map] using shorter
    obtain ⟨verbatim, rfl⟩ := isVerbatim_of_read read known full fun c member => by
      obtain ⟨line, here⟩ := clean c member
      refine ⟨?_, line⟩
      rintro rfl
      exact filled (by simpa using here)
    have kept : o.docstring.toList = lineFeeds o.docstring.toList := by
      simpa [Function.comp_def] using whole
    rwa [kept]
  · intro verbatim
    have clean := clean_of_isVerbatim verbatim
    obtain ⟨read, known⟩ := read_of_isVerbatim ('\n' :: lineFeeds o.remainder.toList) verbatim ends
      (Nat.le_refl _)
    rw [lineFeeds_of_not_mem fun inside => (clean _ inside).2 rfl]
    refine ⟨fun inside => (clean _ inside).1 rfl, _, _, read, known, ?_⟩
    rw [List.map_map, ← String.toList_inj]
    simp [Function.comp_def]

end Output

namespace Code.Token

theorem isVerbatim_append (plain : ∀ c ∈ text, c ∉ ['\x00', '\r', '\\', '"']) (rest : List Char) :
    isVerbatim (text ++ rest) = isVerbatim rest := by
  induction text with
  | nil => rfl
  | cons c text ih =>
    obtain ⟨first, others⟩ := List.forall_mem_cons.mp plain
    simp only [List.mem_cons, List.not_mem_nil, or_false, not_or] at first
    simp [isVerbatim, first, ih others]

theorem isVerbatim_append_cons {c : Char} (other : c ≠ '"') (unknown : startsEscape c = false)
    (text rest : List Char) :
    isVerbatim (text ++ c :: rest) = (isVerbatim text && isVerbatim (c :: rest)) := by
  induction text with
  | nil => rfl
  | cons d text ih =>
    have next : (text ++ c :: rest).head?.any startsEscape = text.head?.any startsEscape := by
      cases text <;> simp [unknown]
    have closes : ['"', '"'].isPrefixOf (text ++ c :: rest) = ['"', '"'].isPrefixOf text := by
      rcases text with _ | ⟨_, _ | _⟩ <;> simp [List.isPrefixOf, Ne.symm other]
    rw [List.cons_append, isVerbatim, next, closes, ih, ← Bool.and_assoc]
    rfl

end Code.Token

theorem Draft.isVerbatim_docstring (path : Value) :
    Code.Token.isVerbatim (docstring path).toList ↔
      (path.truthy → Code.Token.isVerbatim path.display.toList) := by
  unfold docstring
  split
  · rename_i truthy
    rw [String.toList_append, String.toList_append, List.append_assoc,
      Code.Token.isVerbatim_append (List.all_iff_forall_prop.mp (by decide)),
      show "`. Do not edit.".toList = '`' :: ". Do not edit.".toList from rfl,
      Code.Token.isVerbatim_append_cons (by decide) (by decide), Bool.and_eq_true]
    simp only [truthy, true_implies, and_iff_left_iff_imp]
    exact fun _ => by decide
  · rename_i falsy
    exact ⟨fun _ truthy => absurd truthy falsy, fun _ => by decide⟩

theorem Output.opensWithDocstring_of_path (same : o.docstring = Draft.docstring path) :
    o.OpensWithDocstring ↔
      (path.truthy → Code.Token.isVerbatim path.display.toList) := by
  have ends : (Draft.docstring path).toList.getLast? = some '.' := by
    unfold Draft.docstring
    split
    · rw [String.toList_append, List.getLast?_append]
      rfl
    · rfl
  rw [opensWithDocstring_iff, same, Draft.isVerbatim_docstring]
  rw [same, ends]
  rintro c ⟨⟩
  decide

namespace Stream

variable {g : Group} {s : Schema} {emission : Emission}

theorem docstring_main (member : .ok emission ∈ mainEmissions g s) :
    emission.output.docstring = Draft.docstring s.path := by
  cases mem_mainEmissions_iff.mp member with
  | enum _ made => exact (Emit.enumeration_eq_ok (enumEmission_eq_ok made).2).docstring
  | constants known =>
    obtain ⟨cs, -, -, drafted⟩ := constantEmissions_eq_ok known
    obtain ⟨_, -, drafted⟩ := Emit.constants_eq_ok drafted
    exact drafted.docstring
  | record _ made =>
    obtain ⟨_, -, drafted⟩ := Emit.record_eq_ok (recordEmission_eq_ok made).2
    exact drafted.docstring
  | service _ made =>
    obtain ⟨_, _, _, _, -, -, -, drafted⟩ := Emit.service_eq_ok (serviceEmission_eq_ok made).2
    exact drafted.docstring
  | handler _ made =>
    obtain ⟨_, _, _, -, -, -, drafted⟩ := Emit.handler_eq_ok (serviceEmission_eq_ok made).2
    exact drafted.docstring

theorem Folded.docstring {stream units : List Named} (folded : Folded stream units)
    (member : unit ∈ units) : ∃ named ∈ stream, unit.2.docstring = named.2.docstring := by
  rcases mergeAll?_eq (folded.fold_of_mem member) with only | ⟨-, type, types, same⟩
  · exact ⟨(unit.1, unit.2), mem_under_iff.mp (by simp [only]), rfl⟩
  · have here : type ∈ (under unit.1 stream).filter Output.isType := by simp [types]
    exact ⟨(unit.1, type), mem_under_iff.mp (List.mem_of_mem_filter here), by rw [same]; rfl⟩

theorem docstring_unit {streams : Streams} (done : resolved g = .ok streams)
    (member : unit ∈ streams.main ++ streams.companions) :
    ∃ entry ∈ g.schemas, unit.2.docstring = Draft.docstring entry.2.path := by
  obtain ⟨raw, generated, main, companions⟩ := resolved_eq_ok done
  rcases List.mem_append.mp member with inMain | inCompanions
  · obtain ⟨named, inRaw, same⟩ := main.docstring inMain
    obtain ⟨entry, inGroup, emission, known, rfl⟩ := (mem_main_iff generated).mp inRaw
    exact ⟨entry, inGroup, same.trans (docstring_main known)⟩
  · obtain ⟨named, inRaw, same⟩ := companions.docstring inCompanions
    obtain ⟨entry, inGroup, emission, known, rfl⟩ := (mem_companions_iff generated).mp inRaw
    obtain ⟨name, entity, drafted, -⟩ := companion_drafted known
    obtain ⟨_, _, _, _, _, _, _, -, drafted⟩ := Companion.output_eq_ok drafted
    exact ⟨entry, inGroup, same.trans drafted.docstring⟩

/-- A module opens with its docstring, and the rest of it is read as it stands, exactly if the
    path that the docstring names is empty or stands for itself between tripled quotes. -/
theorem docstring_read_iff {streams : Streams} (done : resolved g = .ok streams) {unit : Named}
    (member : unit ∈ streams.main ++ streams.companions) :
    ∃ entry ∈ g.schemas, unit.2.docstring = Draft.docstring entry.2.path ∧
      (unit.2.OpensWithDocstring ↔
        (entry.2.path.truthy → Code.Token.isVerbatim entry.2.path.display.toList)) := by
  obtain ⟨entry, inGroup, same⟩ := docstring_unit done member
  exact ⟨entry, inGroup, same, Output.opensWithDocstring_of_path same⟩

def pathGroup (path : String) : Group where
  schemas := [(.text "m", {
    module := .text "m", path := .text path
    structs := [("A", { kind := .struct, name := "m.A", fields := [] })] })]

def pathStreams (path : String) : Streams := (resolved (pathGroup path)).toOption.getD {}

theorem resolved_pathGroup (path : String)
    (accepted : (resolved (pathGroup path)).toOption.isSome) :
    resolved (pathGroup path) = .ok (pathStreams path) := by
  cases made : resolved (pathGroup path) with
  | error fault =>
    rw [made] at accepted
    cases accepted
  | ok streams =>
    rw [pathStreams, made]
    rfl

def quotedPath : String := "C:\\My files\\say \"m\".thrift"

theorem quoted_path_is_read :
    resolved (pathGroup quotedPath) = .ok (pathStreams quotedPath) ∧
    (pathStreams quotedPath).main.map (·.1) = ["A"] ∧
    ∀ unit ∈ (pathStreams quotedPath).main ++ (pathStreams quotedPath).companions,
      unit.2.OpensWithDocstring := by
  have done := resolved_pathGroup quotedPath (by decide +kernel)
  refine ⟨done, by decide +kernel, fun unit member => ?_⟩
  obtain ⟨entry, inGroup, -, opens⟩ := docstring_read_iff done member
  cases List.mem_singleton.mp inGroup
  exact opens.mpr fun _ => by decide

def escapedPath : String := "C:\\users\\m.thrift"

/-- A backslash and a letter in a path can begin an escape, and the module is not read. -/
theorem escape_in_path_is_misread :
    resolved (pathGroup escapedPath) = .ok (pathStreams escapedPath) ∧
    (pathStreams escapedPath).main.map (·.1) = ["A"] ∧
    ∀ unit ∈ (pathStreams escapedPath).main, ¬ unit.2.OpensWithDocstring := by
  have done := resolved_pathGroup escapedPath (by decide +kernel)
  refine ⟨done, by decide +kernel, fun unit member opens => ?_⟩
  obtain ⟨entry, inGroup, same⟩ := docstring_unit done (List.mem_append_left _ member)
  cases List.mem_singleton.mp inGroup
  exact absurd ((Output.opensWithDocstring_of_path same).mp opens (by decide)) (by decide)

end Stream
end IdlGen
