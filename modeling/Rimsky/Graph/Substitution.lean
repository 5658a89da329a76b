import Rimsky.Foundation.Json
import Mathlib.Data.List.Infix

/-!
# Attribute substitution

`graph/attribute/substitution.go`: an attribute source is text with `{{...}}`
directives; each names a value of the resolve context, may be marked lenient by a
trailing `?`, or give a literal after `|` to fall back to. A source that is one
directive keeps the type of its value; any other source is a string.
-/

namespace Rimsky

/-- `claimproducer.ClaimResult`; an empty raw message is `none`. -/
structure ClaimResult where
  address : Option RawMessage := none
  payload : Option Json := none
  claimScope : Option RawMessage := none
  deriving DecidableEq

structure ResolveContext where
  deps : List (String × Json) := []
  claim : List (String × ClaimResult) := []
  params : Option Json := none
  childPartitionKey : String := ""
  registryDeclaredTypes : Option (List String) := none
  envLookup : String → Option String := fun _ => none

inductive SubstitutionError where
  | missingSource (directive : String) (reason : String) (field : String)
  | fallbackChain (directive : String)
  | lenientFallbackConflict (directive : String)
  | invalidFallback (literal : String)
  deriving DecidableEq, Repr

namespace SubstitutionError

def isMissingSource : SubstitutionError → Bool
  | .missingSource .. => true
  | _ => false

def withField (field : String) : SubstitutionError → SubstitutionError
  | .missingSource directive reason "" => .missingSource directive reason field
  | error => error

end SubstitutionError

def isSpace (c : Char) : Bool :=
  c ∈ ['\t', '\n', '\x0b', '\x0c', '\r', ' ', '\u0085', '\u00a0', '\u1680', '\u2028', '\u2029',
    '\u202f', '\u205f', '\u3000'] || (0x2000 ≤ c.toNat && c.toNat ≤ 0x200a)

def trimSpace (text : List Char) : List Char :=
  ((text.dropWhile isSpace).reverse.dropWhile isSpace).reverse

/-- A piece of a source: a literal character or a directive. -/
inductive Segment where
  | literal (c : Char)
  | directive (body : List Char)
  deriving DecidableEq, Repr

/-- What `\{\{([^}]*)\}\}` captures right after its opening braces. -/
def directiveBody (text : List Char) : Option (List Char) :=
  match text.dropWhile (· ≠ '\x7d') with
  | '\x7d' :: '\x7d' :: _ => some (text.takeWhile (· ≠ '\x7d'))
  | _ => none

/--
The leftmost non-overlapping matches of the directive pattern and the characters
between them. The number counts the characters of a match still to be passed over.
-/
def segments : Nat → List Char → List Segment
  | _, [] => []
  | skip + 1, _ :: text => segments skip text
  | 0, c :: text =>
    match c, text with
    | '\x7b', '\x7b' :: rest =>
      match directiveBody rest with
      | some body => .directive body :: segments (body.length + 3) text
      | none => .literal c :: segments 0 text
    | _, _ => .literal c :: segments 0 text

structure DirectiveShape where
  body : List Char := []
  lenient : Bool := false
  fallbackLiteral : Option (List Char) := none
  multiPipe : Bool := false
  deriving DecidableEq, Repr

/-- The text split at every `|` outside a double-quoted literal. -/
def pipePieces (inQuotes escaped : Bool) : List Char → List (List Char)
  | [] => [[]]
  | c :: text =>
    if !inQuotes && c = '|' then
      [] :: pipePieces false false text
    else
      let inQuotes' := if inQuotes then escaped || c ≠ '"' else c = '"'
      let escaped' := inQuotes && !escaped && c = '\\'
      match pipePieces inQuotes' escaped' text with
      | [] => [[c]]
      | piece :: pieces => (c :: piece) :: pieces

def parseLenientMarker (body : List Char) : Bool × List Char :=
  match (trimSpace body).getLast? with
  | some '?' => (true, trimSpace (trimSpace body).dropLast)
  | _ => (false, body)

def parseDirectiveShape (directive : List Char) : DirectiveShape :=
  match pipePieces false false directive with
  | [left, right] =>
    let (lenient, body) := parseLenientMarker (trimSpace left)
    { body, lenient, fallbackLiteral := some (trimSpace right) }
  | [_] =>
    let (lenient, body) := parseLenientMarker directive
    { body, lenient }
  | _ => { multiPipe := true }

/-- The digits of a JSON number after its first, with a fraction and an exponent. -/
def isNumberTail : List Char → Bool := fun text =>
  let afterInt := text.dropWhile Char.isDigit
  let afterFraction : Option (List Char) :=
    match afterInt with
    | '.' :: rest =>
      if (rest.takeWhile Char.isDigit).isEmpty then none else some (rest.dropWhile Char.isDigit)
    | rest => some rest
  match afterFraction with
  | none => false
  | some [] => true
  | some (e :: rest) =>
    let digits := match rest with
      | '+' :: ds => ds
      | '-' :: ds => ds
      | ds => ds
    (e = 'e' || e = 'E') && !digits.isEmpty && digits.all Char.isDigit

def isNumber (text : List Char) : Bool :=
  let unsigned := match text with
    | '-' :: rest => rest
    | rest => rest
  match unsigned with
  | '0' :: rest => !(rest.head?.any Char.isDigit) && isNumberTail rest
  | d :: rest => d.isDigit && isNumberTail rest
  | [] => false

def hexValue (c : Char) : Option Nat :=
  if c.isDigit then some (c.toNat - '0'.toNat)
  else if 'a' ≤ c && c ≤ 'f' then some (c.toNat - 'a'.toNat + 10)
  else if 'A' ≤ c && c ≤ 'F' then some (c.toNat - 'A'.toNat + 10)
  else none

def hexCode (a b c d : Char) : Option Nat :=
  [a, b, c, d].foldlM (fun n digit => return 16 * n + (← hexValue digit)) 0

/-- A lone surrogate reads as the replacement character. -/
def charOfCode (code : Nat) : Char :=
  if h : code.isValidChar then Char.ofNatAux code h else '\ufffd'

/-- `utf16.DecodeRune`. -/
def surrogatePair (high low : Nat) : Option Nat :=
  if 0xd800 ≤ high ∧ high < 0xdc00 ∧ 0xdc00 ≤ low ∧ low < 0xe000 then
    some (0x10000 + (high - 0xd800) * 0x400 + (low - 0xdc00))
  else none

/-- `json.Unmarshal` of what stands between the quotes of a string literal. -/
def unescape : List Char → Option (List Char)
  | [] => some []
  | '\\' :: 'u' :: a :: b :: c :: d :: rest => do
    let code ← hexCode a b c d
    match rest with
    | '\\' :: 'u' :: e :: f :: g :: h :: rest' =>
      match (hexCode e f g h).bind (surrogatePair code) with
      | some pair => return charOfCode pair :: (← unescape rest')
      | none => return charOfCode code :: (← unescape ('\\' :: 'u' :: e :: f :: g :: h :: rest'))
    | rest => return charOfCode code :: (← unescape rest)
  | '\\' :: c :: rest => do
    let char ← match c with
      | '"' => some '"'
      | '\\' => some '\\'
      | '/' => some '/'
      | 'b' => some '\x08'
      | 'f' => some '\x0c'
      | 'n' => some '\n'
      | 'r' => some '\r'
      | 't' => some '\t'
      | _ => none
    return char :: (← unescape rest)
  | c :: rest =>
    if c = '"' || c = '\\' || c.toNat < 32 then none else do return c :: (← unescape rest)

/-- `parseFallbackLiteral`; a null literal is the null value. -/
def parseFallbackLiteral (raw : List Char) : Except SubstitutionError Json :=
  if raw = "null".toList then .ok .null
  else if raw = "true".toList then .ok (.bool true)
  else if raw = "false".toList then .ok (.bool false)
  else if 2 ≤ raw.length && raw.head? = some '"' && raw.getLast? = some '"' then
    match unescape raw.tail.dropLast with
    | some text => .ok (.str (String.ofList text))
    | none => .error (.invalidFallback (String.ofList raw))
  else if isNumber raw then .ok (.num (String.ofList raw))
  else .error (.invalidFallback (String.ofList raw))

/-- `walkPath`; a null on the way is not found. -/
def walkPath : Json → List String → Option Json
  | .null, _ => none
  | value, [] => some value
  | .obj fields, seg :: path =>
    match List.lookup seg fields with
    | some value => walkPath value path
    | none => none
  | _, _ :: _ => none

/-- `stringifyRaw`: the text of a JSON string, nothing for `null`, or the bytes as they are. -/
def stringifyRaw (raw : RawMessage) : String :=
  match raw.value with
  | some (.str text) => text
  | some .null => ""
  | _ => raw.text

def isEnvVarName (name : String) : Bool :=
  match name.toList with
  | c :: rest => (c.isAlpha || c = '_') && rest.all (fun c => c.isAlpha || c.isDigit || c = '_')
  | [] => false

/-! ## Resolution

Every failure of a raw lookup is a missing source, so a raw lookup returns the value
or the reason it is missing. -/

def resolveEnvValue (rest : List String) (ctx : ResolveContext) : Except String Json :=
  match rest with
  | [name] =>
    if name = "" then .error "env directive must be env.<VAR_NAME>"
    else if !isEnvVarName name then .error "env var name must match [A-Za-z_][A-Za-z0-9_]*"
    else match ctx.envLookup name with
      | some value => .ok (.str value)
      | none => .error ("env var " ++ name ++ " is not set")
  | _ => .error "env directive must be env.<VAR_NAME>"

def resolveChildValue (rest : List String) (ctx : ResolveContext) : Except String Json :=
  if rest ≠ ["partition_key"] then .error "child directive must be child.partition_key"
  else if ctx.childPartitionKey = "" then
    .error "no partition_key bound (fan-out leaf dispatch context only)"
  else .ok (.str ctx.childPartitionKey)

def resolveClaimValue (rest : List String) (claims : List (String × ClaimResult)) :
    Except String Json :=
  match rest with
  | name :: field :: path =>
    match claims.lookup name with
    | none => .error ("no claim for alias " ++ name)
    | some claim =>
      if field = "address" then
        if path ≠ [] then .error "claim.<alias>.address takes no further field path"
        else match claim.address with
          | none => .error "claim address is empty"
          | some raw => .ok (.str (stringifyRaw raw))
      else if field = "claim_scope" then
        if path ≠ [] then .error "claim.<alias>.claim_scope takes no further field path"
        else match claim.claimScope with
          | none => .error "claim claim_scope is empty"
          | some raw => .ok (.str (stringifyRaw raw))
      else if field = "payload" then
        match claim.payload with
        | none => .error "claim payload is empty"
        | some raw =>
          match walkPath raw path with
          | some value => .ok value
          | none => .error "payload field path not found"
      else .error "claim directive second segment must be address|claim_scope|payload"
  | _ => .error "claim directive needs <alias>.\x7baddress|claim_scope|payload[.<field>]\x7d"

def resolveParamsValue (rest : List String) (params : Option Json) : Except String Json :=
  if rest = [] then .error "params directive needs <key>"
  else match params with
    | none => .error "params is empty"
    | some raw =>
      match walkPath raw rest with
      | some value => .ok value
      | none => .error "param key not found"

def resolveNodesValue (rest : List String) (ctx : ResolveContext) : Except String Json :=
  match rest with
  | [] => .error "nodes directive needs <type>[.<field>]"
  | typeName :: tail =>
    if typeName = "" then .error "nodes directive has an empty <type>"
    else match tail with
      | "attribute" :: path =>
        match ctx.deps.lookup typeName with
        | none => .error ("no upstream node " ++ typeName)
        | some data =>
          match walkPath data path with
          | some value => .ok value
          | none => .error "attribute field path not found"
      | _ => .error "nodes directive second segment must be 'attribute'"

def resolveMessagesValue (rest : List String) (ctx : ResolveContext) : Except String Json :=
  match rest with
  | [] => .error "messages directive needs <type>[.<field>]"
  | typeName :: path =>
    if typeName = "" then .error "messages directive has an empty <type>"
    else if ctx.registryDeclaredTypes.any (fun declared => !declared.contains typeName) then
      .error "messages directive names a type not in the template's messages registry"
    else match ctx.deps.lookup typeName with
      | none => .error ("no delivered message of type " ++ typeName ++ " bound to this frame")
      | some data =>
        match walkPath data path with
        | some value => .ok value
        | none => .error "message body field path not found"

def directiveParts (body : List Char) : List String := (body.splitOn '.').map String.ofList

def resolveDirectiveValueRaw (body : List Char) (ctx : ResolveContext) : Except String Json :=
  match directiveParts body with
  | kind :: first :: others =>
    let rest := first :: others
    if kind = "claim" then resolveClaimValue rest ctx.claim
    else if kind = "params" then resolveParamsValue rest ctx.params
    else if kind = "nodes" then resolveNodesValue rest ctx
    else if kind = "messages" then resolveMessagesValue rest ctx
    else if kind = "child" then resolveChildValue rest ctx
    else if kind = "env" then resolveEnvValue rest ctx
    else .error ("unknown source kind " ++ kind)
  | _ => .error "directive must have at least <kind>.<field>"

/-- What the shape of a directive makes of its raw lookup. -/
def DirectiveShape.finish (shape : DirectiveShape) (directive : List Char)
    (raw : Except String Json) : Except SubstitutionError Json :=
  if shape.multiPipe then .error (.fallbackChain (String.ofList directive))
  else if shape.lenient && shape.fallbackLiteral.isSome then
    .error (.lenientFallbackConflict (String.ofList directive))
  else match raw with
    | .ok value => .ok value
    | .error reason =>
      match shape.fallbackLiteral with
      | some literal => parseFallbackLiteral literal
      | none =>
        if shape.lenient then .ok .null
        else .error (.missingSource (String.ofList shape.body) reason "")

def resolveDirectiveValue (directive : List Char) (ctx : ResolveContext) :
    Except SubstitutionError Json :=
  (parseDirectiveShape directive).finish directive
    (resolveDirectiveValueRaw (parseDirectiveShape directive).body ctx)

/-- A `{{...}}` match: its trimmed inside, which must not be empty. -/
def resolveMatch (body : List Char) (ctx : ResolveContext) : Except SubstitutionError Json :=
  if trimSpace body = [] then .error (.missingSource "" "empty directive" "")
  else resolveDirectiveValue (trimSpace body) ctx

/-- `resolveDirective`: the text of the value, and none of it for null. -/
def directiveText : Json → List Char
  | .null => []
  | value => value.stringify

/-- The replacement of every directive by its text; the first failure wins. -/
def substituteSegments (ctx : ResolveContext) : List Segment → Except SubstitutionError (List Char)
  | [] => .ok []
  | .literal c :: rest => (substituteSegments ctx rest).map (c :: ·)
  | .directive body :: rest =>
    match resolveMatch body ctx with
    | .error error => .error error
    | .ok value => (substituteSegments ctx rest).map (directiveText value ++ ·)

def substitute (raw : String) (ctx : ResolveContext) : Except SubstitutionError String :=
  (substituteSegments ctx (segments 0 raw.toList)).map String.ofList

def substituteValue (raw : String) (ctx : ResolveContext) : Except SubstitutionError Json :=
  match segments 0 (trimSpace raw.toList) with
  | [.directive body] => resolveMatch body ctx
  | _ => (substitute raw ctx).map Json.str

end Rimsky
