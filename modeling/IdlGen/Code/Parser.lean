import IdlGen.Code.Term
import IdlGen.Code.Token

/-!
Reading modules. `Parser.module` reads the statements of a text. What terms stand in
annotations is read and dropped; operators are read without regard to their
binding, since no generated value is computed with one.
-/
namespace IdlGen.Code.Parser

abbrev Read (α : Type) := α × List Token

def stopCause : List Token → SourceFault
  | .fault cause :: _ => cause
  | .indent :: _ => .indentation
  | .dedent :: _ => .indentation
  | _ => .malformed

def symbol (s : String) (ts : List Token) : Except SourceFault (List Token) :=
  match ts with
  | .symbol t :: rest => if t = s then .ok rest else .error .malformed
  | ts => .error (stopCause ts)

def word (w : String) (ts : List Token) : Except SourceFault (List Token) :=
  match ts with
  | .word t :: rest => if t = w then .ok rest else .error .malformed
  | ts => .error (stopCause ts)

def atSymbol (s : String) (ts : List Token) : Bool :=
  match ts with
  | .symbol t :: _ => t == s
  | _ => false

def identifier (ts : List Token) : Except SourceFault (Read String) :=
  match ts with
  | .name id :: rest => .ok (id, rest)
  | ts => .error (stopCause ts)

/-! ## Terms -/

def infixes : List String :=
  ["+", "-", "*", "/", "//", "%", "@", "**", "<<", ">>", "&", "|", "^", "<", ">", "<=", ">=", "==",
    "!="]

def operator? (ts : List Token) : Option (String × List Token) :=
  match ts with
  | .symbol s :: rest => if infixes.contains s then some (s, rest) else none
  | .word "is" :: .word "not" :: rest => some ("is not", rest)
  | .word "not" :: .word "in" :: rest => some ("not in", rest)
  | .word w :: rest => if ["and", "or", "in", "is"].contains w then some (w, rest) else none
  | _ => none

def unary? (ts : List Token) : Option (String × List Token) :=
  match ts with
  | .symbol s :: rest => if ["+", "-", "~"].contains s then some (s, rest) else none
  | .word "not" :: rest => some ("not", rest)
  | _ => none

/-- A term with an operator before it. A number with a minus is a number. -/
def applyUnary (operator : String) (t : Term) : Term :=
  match operator, t with
  | "-", .literal (.int n) => .literal (.int (-n))
  | "-", .literal (.float x) => .literal (.float x.negate)
  | operator, t => .operation operator [t]

def adjacentTexts : List Token → String × List Token
  | .text s :: rest => (s ++ (adjacentTexts rest).1, (adjacentTexts rest).2)
  | rest => ("", rest)

def adjacentBytes : List Token → List UInt8 × List Token
  | .bytes data :: rest => (data ++ (adjacentBytes rest).1, (adjacentBytes rest).2)
  | rest => ([], rest)

def atText : List Token → Bool
  | .text _ :: _ => true
  | .bytes _ :: _ => true
  | .pattern :: _ => true
  | _ => false

def literalText (ts : List Token) : Except SourceFault (Read Term) :=
  match ts with
  | .text _ :: _ =>
    let (s, rest) := adjacentTexts ts
    if atText rest then .error .malformed else .ok (.literal (.text s), rest)
  | .bytes _ :: _ =>
    let (data, rest) := adjacentBytes ts
    if atText rest then .error .malformed else .ok (.literal (.bytes data), rest)
  | _ :: rest => .ok (.operation "pattern" [], rest)
  | [] => .error .malformed

def wordValue? (w : String) : Option Value :=
  match w with
  | "None" => some .null
  | "True" => some (.bool true)
  | "False" => some (.bool false)
  | _ => none

mutual

def term : Nat → List Token → Except SourceFault (Read Term)
  | 0, ts => .error (stopCause ts)
  | fuel + 1, ts => do
    let (first, rest) ← chain fuel ts
    match rest with
    | .word "if" :: rest =>
      let (condition, rest) ← chain fuel rest
      let rest ← word "else" rest
      let (other, rest) ← term fuel rest
      return (.choice first condition other, rest)
    | rest => return (first, rest)

def chain : Nat → List Token → Except SourceFault (Read Term)
  | 0, ts => .error (stopCause ts)
  | fuel + 1, ts => do
    let (first, rest) ← operand fuel ts
    match operator? rest with
    | some (operator, rest) =>
      let (second, rest) ← chain fuel rest
      return (.operation operator [first, second], rest)
    | none => return (first, rest)

def operand : Nat → List Token → Except SourceFault (Read Term)
  | 0, ts => .error (stopCause ts)
  | fuel + 1, ts => do
    match unary? ts with
    | some (operator, rest) =>
      let (t, rest) ← operand fuel rest
      return (applyUnary operator t, rest)
    | none =>
      let (t, rest) ← atom fuel ts
      trailers fuel t rest

def trailers : Nat → Term → List Token → Except SourceFault (Read Term)
  | 0, _, ts => .error (stopCause ts)
  | fuel + 1, t, ts => do
    match ts with
    | .symbol "." :: rest =>
      let (id, rest) ← identifier rest
      trailers fuel (.attr t id) rest
    | .symbol "(" :: rest =>
      let ((args, kwargs), rest) ← arguments fuel rest
      trailers fuel (.call t args kwargs) rest
    | .symbol "[" :: rest =>
      let (keys, rest) ← itemKeys fuel rest
      if keys.isEmpty then throw .malformed
      trailers fuel (.item t keys) rest
    | ts => return (t, ts)

def atom : Nat → List Token → Except SourceFault (Read Term)
  | 0, ts => .error (stopCause ts)
  | fuel + 1, ts => do
    match ts with
    | .name id :: rest => return (.name id, rest)
    | .number value :: rest => return (.literal value, rest)
    | .text _ :: _ => literalText ts
    | .bytes _ :: _ => literalText ts
    | .pattern :: _ => literalText ts
    | .word w :: rest =>
      match wordValue? w with
      | some value => return (.literal value, rest)
      | none => throw .malformed
    | .symbol "..." :: rest => return (.literal (.object "Ellipsis"), rest)
    | .symbol "(" :: .symbol ")" :: rest => return (.tuple [], rest)
    | .symbol "(" :: rest =>
      let (first, rest) ← term fuel rest
      if atSymbol ")" rest then return (first, rest.drop 1)
      let (others, rest) ← items fuel ")" (← symbol "," rest)
      return (.tuple (first :: others), rest)
    | .symbol "[" :: rest =>
      let (ts, rest) ← items fuel "]" rest
      return (.list ts, rest)
    | .symbol "\x7b" :: .symbol "\x7d" :: rest => return (.dict [], rest)
    | .symbol "\x7b" :: rest =>
      let (first, rest) ← term fuel rest
      match rest with
      | .symbol ":" :: rest =>
        let (value, rest) ← term fuel rest
        let (others, rest) ← entries fuel rest
        return (.dict ((first, value) :: others), rest)
      | .symbol "\x7d" :: rest => return (.set [first], rest)
      | rest =>
        let (others, rest) ← items fuel "\x7d" (← symbol "," rest)
        return (.set (first :: others), rest)
    | ts => throw (stopCause ts)

def items : Nat → String → List Token → Except SourceFault (Read (List Term))
  | 0, _, ts => .error (stopCause ts)
  | fuel + 1, closing, ts => do
    if atSymbol closing ts then return ([], ts.drop 1)
    let (first, rest) ← term fuel ts
    if atSymbol closing rest then return ([first], rest.drop 1)
    let (others, rest) ← items fuel closing (← symbol "," rest)
    return (first :: others, rest)

def entries : Nat → List Token → Except SourceFault (Read (List (Term × Term)))
  | 0, ts => .error (stopCause ts)
  | fuel + 1, ts => do
    if atSymbol "\x7d" ts then return ([], ts.drop 1)
    let rest ← symbol "," ts
    if atSymbol "\x7d" rest then return ([], rest.drop 1)
    let (key, rest) ← term fuel rest
    let (value, rest) ← term fuel (← symbol ":" rest)
    let (others, rest) ← entries fuel rest
    return ((key, value) :: others, rest)

/-- Arguments of a call up to its closing bracket: those without names first. -/
def arguments : Nat → List Token → Except SourceFault (Read (List Term × List (String × Term)))
  | 0, ts => .error (stopCause ts)
  | fuel + 1, ts => do
    if atSymbol ")" ts then return (([], []), ts.drop 1)
    match ts with
    | .name id :: .symbol "=" :: rest =>
      let (value, rest) ← term fuel rest
      let (more, rest) ← if atSymbol ")" rest then pure (([], []), rest.drop 1)
        else arguments fuel (← symbol "," rest)
      if !more.1.isEmpty then throw .malformed
      return (([], (id, value) :: more.2), rest)
    | ts =>
      let (value, rest) ← term fuel ts
      let (more, rest) ← if atSymbol ")" rest then pure (([], []), rest.drop 1)
        else arguments fuel (← symbol "," rest)
      return ((value :: more.1, more.2), rest)

def itemKeys : Nat → List Token → Except SourceFault (Read (List Term))
  | 0, ts => .error (stopCause ts)
  | fuel + 1, ts => do
    if atSymbol "]" ts then return ([], ts.drop 1)
    let (key, rest) ← itemKey fuel ts
    if atSymbol "]" rest then return ([key], rest.drop 1)
    let (others, rest) ← itemKeys fuel (← symbol "," rest)
    return (key :: others, rest)

def itemKey : Nat → List Token → Except SourceFault (Read Term)
  | 0, ts => .error (stopCause ts)
  | fuel + 1, ts => do
    let (first?, rest) ← bound fuel ts
    match first?, rest with
    | first?, .symbol ":" :: rest =>
      let (second?, rest) ← bound fuel rest
      let (third?, rest) ← if atSymbol ":" rest then bound fuel (rest.drop 1)
        else pure (none, rest)
      return (.operation ":" (first?.toList ++ second?.toList ++ third?.toList), rest)
    | some key, rest => return (key, rest)
    | none, rest => throw (stopCause rest)

def bound : Nat → List Token → Except SourceFault (Read (Option Term))
  | 0, ts => .error (stopCause ts)
  | fuel + 1, ts => do
    if atSymbol ":" ts || atSymbol "]" ts || atSymbol "," ts then return (none, ts)
    let (t, rest) ← term fuel ts
    return (some t, rest)

end

def terms : Nat → List Token → Except SourceFault (Read Term)
  | 0, ts => .error (stopCause ts)
  | fuel + 1, ts => do
    let (first, rest) ← term fuel ts
    if !atSymbol "," rest then return (first, rest)
    let rest := rest.drop 1
    let ended := match rest with
      | .newline :: _ => true
      | .symbol s :: _ => s == "=" || s == ";" || s == ":"
      | _ => false
    if ended then return (.tuple [first], rest)
    let (others, rest) ← terms fuel rest
    return (match others with
      | .tuple others => .tuple (first :: others)
      | other => .tuple [first, other], rest)

/-! ## Simple statements -/

mutual

def isTarget : Term → Bool
  | .name _ => true
  | .attr _ _ => true
  | .item _ _ => true
  | .tuple ts => areTargets ts
  | .list ts => areTargets ts
  | _ => false

def areTargets : List Term → Bool
  | [] => true
  | t :: rest => isTarget t && areTargets rest

end

def isSingleTarget : Term → Bool
  | .name _ => true
  | .attr _ _ => true
  | .item _ _ => true
  | _ => false

def dottedName : Nat → List Token → Except SourceFault (Read String)
  | 0, ts => .error (stopCause ts)
  | fuel + 1, ts => do
    let (first, rest) ← identifier ts
    match rest with
    | .symbol "." :: rest =>
      let (others, rest) ← dottedName fuel rest
      return (first ++ "." ++ others, rest)
    | rest => return (first, rest)

def shortName (ts : List Token) : Except SourceFault (Read (Option String)) :=
  match ts with
  | .word "as" :: rest => do
    let (id, rest) ← identifier rest
    return (some id, rest)
  | ts => .ok (none, ts)

def importClauses : Nat → List Token → Except SourceFault (Read (List Statement))
  | 0, ts => .error (stopCause ts)
  | fuel + 1, ts => do
    let (path, rest) ← dottedName fuel ts
    let (short?, rest) ← shortName rest
    if !atSymbol "," rest then return ([.importModule path short?], rest)
    let (others, rest) ← importClauses fuel (rest.drop 1)
    return (.importModule path short? :: others, rest)

def exportClauses (path : String) : Nat → List Token → Except SourceFault (Read (List Statement))
  | 0, ts => .error (stopCause ts)
  | fuel + 1, ts => do
    let (id, rest) ← identifier ts
    let (short?, rest) ← shortName rest
    if !atSymbol "," rest then return ([.importFrom path id short?], rest)
    let (others, rest) ← exportClauses path fuel (rest.drop 1)
    return (.importFrom path id short? :: others, rest)

def assigned : Nat → List Token → Except SourceFault (Read (List Term × Term))
  | 0, ts => .error (stopCause ts)
  | fuel + 1, ts => do
    let (t, rest) ← terms fuel ts
    if !atSymbol "=" rest then return (([], t), rest)
    if !isTarget t then throw .malformed
    let ((targets, value), rest) ← assigned fuel (rest.drop 1)
    return ((t :: targets, value), rest)

def termStatement (fuel : Nat) (ts : List Token) : Except SourceFault (Read Statement) := do
  let isBare := match ts with
    | .name _ :: .symbol ":" :: _ => true
    | _ => false
  let (t, rest) ← terms fuel ts
  match rest with
  | .symbol ":" :: rest =>
    if !isSingleTarget t then throw .malformed
    let (hint, rest) ← term fuel rest
    if !atSymbol "=" rest then return (.annotate t isBare hint.leading? none, rest)
    let (value, rest) ← terms fuel (rest.drop 1)
    return (.annotate t isBare hint.leading? (some value), rest)
  | .symbol "=" :: rest =>
    if !isTarget t then throw .malformed
    let ((targets, value), rest) ← assigned fuel rest
    return (.assign (t :: targets) value, rest)
  | rest => return (.expression t, rest)

def atEnd (ts : List Token) : Bool :=
  match ts with
  | .newline :: _ => true
  | .symbol ";" :: _ => true
  | _ => false

def simple (fuel : Nat) (ts : List Token) : Except SourceFault (Read (List Statement)) := do
  match ts with
  | .word "pass" :: rest => return ([.pass], rest)
  | .word "return" :: rest =>
    if atEnd rest then return ([.result none], rest)
    let (value, rest) ← terms fuel rest
    return ([.result (some value)], rest)
  | .word "import" :: rest => importClauses fuel rest
  | .word "from" :: rest =>
    let (path, rest) ← dottedName fuel rest
    exportClauses path fuel (← word "import" rest)
  | ts =>
    let (statement, rest) ← termStatement fuel ts
    return ([statement], rest)

def line : Nat → List Token → Except SourceFault (Read (List Statement))
  | 0, ts => .error (stopCause ts)
  | fuel + 1, ts => do
    let (first, rest) ← simple fuel ts
    match rest with
    | .newline :: rest => return (first, rest)
    | .symbol ";" :: .newline :: rest => return (first, rest)
    | .symbol ";" :: rest =>
      let (others, rest) ← line fuel rest
      return (first ++ others, rest)
    | rest => throw (stopCause rest)

/-! ## Compound statements -/

/-- An annotation after a symbol, if there is one. It is dropped. -/
def skipHint (fuel : Nat) (mark : String) (ts : List Token) : Except SourceFault (List Token) := do
  if !atSymbol mark ts then return ts
  let (_, rest) ← term fuel (ts.drop 1)
  return rest

inductive ParamMark where
  | plain
  /-- Takes all further arguments without names. -/
  | rest
  /-- Takes all further arguments with names. -/
  | named
  /-- No parameter: those before it are given by place only. -/
  | placeEnd
  /-- No parameter: those after it are given by name only. -/
  | nameStart
deriving DecidableEq, Repr

/-- Whether parameters are in order: those by place come before those by name, none follows one
    that takes all, and of those that are given by place the ones with defaults are last. -/
def inOrder (marks : List (ParamMark × Param)) : Bool :=
  let kinds := marks.map (·.1)
  let placed := (marks.takeWhile fun m => m.1 == .plain || m.1 == .placeEnd).filter fun m =>
    m.1 == .plain
  let stars := kinds.filter fun k => k == .rest || k == .nameStart
  let afterStar := kinds.dropWhile fun k => k != .rest && k != .nameStart
  !(placed.dropWhile fun m => m.2.default?.isNone).any (fun m => m.2.default?.isNone) &&
    decide (stars.length ≤ 1) && decide (kinds.count .placeEnd ≤ 1) &&
    kinds.head? != some .placeEnd && !afterStar.contains .placeEnd &&
    (kinds.dropWhile (· != .named)).length ≤ 1 &&
    (afterStar.head? != some .nameStart || (afterStar.drop 1).head? == some .plain)

def param (fuel : Nat) (ts : List Token) : Except SourceFault (Read (ParamMark × Param)) := do
  let named (mark : ParamMark) (ts : List Token) : Except SourceFault (Read (ParamMark × Param)) := do
    let (id, rest) ← identifier ts
    let rest ← skipHint fuel ":" rest
    return ((mark, ⟨id, none⟩), rest)
  match ts with
  | .symbol "/" :: rest => return ((.placeEnd, ⟨"", none⟩), rest)
  | .symbol "*" :: .symbol "," :: rest => return ((.nameStart, ⟨"", none⟩), .symbol "," :: rest)
  | .symbol "*" :: rest => named .rest rest
  | .symbol "**" :: rest => named .named rest
  | ts =>
    let ((mark, p), rest) ← named .plain ts
    if !atSymbol "=" rest then return ((mark, p), rest)
    let (t, rest) ← term fuel (rest.drop 1)
    return ((mark, { p with default? := some t }), rest)

def params : Nat → List Token → Except SourceFault (Read (List (ParamMark × Param)))
  | 0, ts => .error (stopCause ts)
  | fuel + 1, ts => do
    if atSymbol ")" ts then return ([], ts.drop 1)
    let (first, rest) ← param fuel ts
    if atSymbol ")" rest then return ([first], rest.drop 1)
    let (others, rest) ← params fuel (← symbol "," rest)
    return (first :: others, rest)

def decorators : Nat → List Token → Except SourceFault (Read (List Term))
  | 0, ts => .error (stopCause ts)
  | fuel + 1, ts => do
    if !atSymbol "@" ts then return ([], ts)
    let (t, rest) ← term fuel (ts.drop 1)
    match rest with
    | .newline :: rest =>
      let (others, rest) ← decorators fuel rest
      return (t :: others, rest)
    | rest => throw (stopCause rest)

def bases (fuel : Nat) (ts : List Token) : Except SourceFault (Read (List Term)) := do
  if !atSymbol "(" ts then return ([], ts)
  let ((args, kwargs), rest) ← arguments fuel (ts.drop 1)
  return (args ++ kwargs.map fun arg => .operation "=" [arg.2], rest)

mutual

def statement : Nat → List Token → Except SourceFault (Read (List Statement))
  | 0, ts => .error (stopCause ts)
  | fuel + 1, ts => do
    let (marks, ts) ← decorators fuel ts
    match ts with
    | .word "class" :: rest =>
      let (id, rest) ← identifier rest
      let (parents, rest) ← bases fuel rest
      let (body, rest) ← block fuel (← symbol ":" rest)
      return ([.classDef id marks parents body], rest)
    | .word "def" :: rest =>
      let (id, rest) ← identifier rest
      let (ps, rest) ← params fuel (← symbol "(" rest)
      if !inOrder ps then throw .malformed
      let rest ← skipHint fuel "->" rest
      let (body, rest) ← block fuel (← symbol ":" rest)
      let ps := ps.filter fun p => p.1 != .placeEnd && p.1 != .nameStart
      return ([.function id marks (ps.map (·.2)) body], rest)
    | .word "if" :: rest =>
      if !marks.isEmpty then throw .malformed
      let (s, rest) ← branches fuel rest
      return ([s], rest)
    | ts => if marks.isEmpty then line fuel ts else throw (stopCause ts)

def branches : Nat → List Token → Except SourceFault (Read Statement)
  | 0, ts => .error (stopCause ts)
  | fuel + 1, ts => do
    let (condition, rest) ← term fuel ts
    let (yes, rest) ← block fuel (← symbol ":" rest)
    match rest with
    | .word "elif" :: rest =>
      let (no, rest) ← branches fuel rest
      return (.branch condition yes [no], rest)
    | .word "else" :: rest =>
      let (no, rest) ← block fuel (← symbol ":" rest)
      return (.branch condition yes no, rest)
    | rest => return (.branch condition yes [], rest)

def block : Nat → List Token → Except SourceFault (Read (List Statement))
  | 0, ts => .error (stopCause ts)
  | fuel + 1, ts => do
    match ts with
    | .newline :: .indent :: rest =>
      let (body, rest) ← statements fuel rest
      match rest with
      | .dedent :: rest => return (body, rest)
      | rest => throw (stopCause rest)
    | .newline :: .fault cause :: _ => throw cause
    | .newline :: _ => throw .indentation
    | ts => line fuel ts

def statements : Nat → List Token → Except SourceFault (Read (List Statement))
  | 0, ts => .error (stopCause ts)
  | fuel + 1, ts => do
    match ts with
    | .dedent :: _ => return ([], ts)
    | .finish :: _ => return ([], ts)
    | ts =>
      let (first, rest) ← statement fuel ts
      let (others, rest) ← statements fuel rest
      return (first ++ others, rest)

end

/-- The statements of a text. No more than a few steps are nested at each token. -/
def module (text : String) : Except SourceFault (List Statement) := do
  let tokens := Token.scan text
  let (body, rest) ← statements (8 * tokens.length + 8) tokens
  match rest with
  | .finish :: _ => return body
  | rest => throw (stopCause rest)

end IdlGen.Code.Parser
