import Mocop.Inventory.Document

/-!
# `Mocop.Web.Schemas`: the queries and the bodies that a route accepts

A route declares its query parameters (`QuerySchema`) and the fields of its body (`BodySchema`).
`parseQuery` gives the value of every parameter, or the code, the message and the parameter of the
first problem; `validateBody` checks a decoded body in the same way. How Python takes a query
apart and reads a whole number is the parameter `QueryRules`.
-/

set_option autoImplicit false

namespace Mocop.Web

/-- The stable codes of the errors. -/
inductive ErrorCode where
  | invalidRequestAuthority | invalidRequestFraming | invalidRequestTarget
  | requestBodyNotAllowed | queryNotAllowed | unknownQueryParameter | invalidQuery
  | invalidLimit | invalidHours | invalidCapacityRequest | invalidHost | invalidJson
  | invalidSchema | invalidSettings | untrustedOrigin | authenticationRequired | notFound
  | unknownHost | unknownGpu | methodNotAllowed | probeInProgress | updateNotApplicable
  | inventoryChanged | incidentNotActive | payloadTooLarge | unsupportedMediaType
  | rateLimited | serviceUnavailable | metricsLimitExceeded | notificationsDisabled
  | historyUnavailable | connectionLimit
  deriving DecidableEq

/-- A refused query or body: the message, the code, and the parameter or field at fault. -/
structure SchemaError where
  message : String
  code : ErrorCode
  field : Option String

/-- The first entry of a name. -/
def entry {α : Type} (entries : List (String × α)) (name : String) : Option α :=
  (entries.find? fun candidate => candidate.1 == name).map (·.2)

/-! ### Queries -/

/-- What Python does with the texts of a query. -/
structure QueryRules where
  /-- `unquote` of a name or a value in which every plus is a blank -/
  unquote : String → String
  /-- `int(text)` -/
  int : String → Option ℤ

/-- The kind of a parameter. -/
inductive QueryKind where
  | alias
  | identity
  | text
  | integer
  deriving DecidableEq

/-- What a handler gets for a parameter. -/
inductive QueryValue where
  | absent
  | text (value : String)
  | integer (value : ℤ)
  deriving DecidableEq

/-- One accepted query parameter. The bounds and the code belong to the whole numbers. -/
structure QueryParameter where
  kind : QueryKind
  required : Bool := false
  minimum : ℤ := 0
  maximum : ℤ := 0
  default : QueryValue := .absent
  invalidCode : ErrorCode := .invalidQuery

/-- The parameters of a route with the code and the message of a wrong shape. -/
structure QuerySchema where
  parameters : List (String × QueryParameter)
  shapeCode : ErrorCode
  shapeMessage : String

/-- `_valid_text` -/
def validText (value : String) : Bool :=
  1 ≤ value.length && value.length ≤ 128 && value.toList.all fun c => 32 ≤ c.toNat

/-- The names and values of a query in their order; a name without a value has an empty one. -/
def parseQsl (rules : QueryRules) (query : String) : List (String × String) :=
  ((splitAt '&' query).filter (· ≠ "")).map fun pair =>
    let chars := pair.toList.map fun c => if c = '+' then ' ' else c
    (rules.unquote (String.ofList (chars.takeWhile (· ≠ '='))),
      rules.unquote (String.ofList ((chars.dropWhile (· ≠ '=')).drop 1)))

/-- The values of a name. -/
def given (pairs : List (String × String)) (name : String) : List String :=
  (pairs.filter fun pair => pair.1 == name).map (·.2)

/-- Whether a single value has the shape of its parameter. -/
def QueryParameter.shaped (parameter : QueryParameter) (value : String) : Bool :=
  match parameter.kind with
  | .alias => isSafeAlias value
  | .identity | .text => validText value
  | .integer => true

/-- The value that a query supplies for a parameter: none, one, or a wrong shape. -/
def supplied (parameter : QueryParameter) (values : List String) : Option (Option String) :=
  match values with
  | [] => if parameter.required then none else some none
  | [value] => if parameter.shaped value then some (some value) else none
  | _ => none

/-- The parameters with the texts that the query supplies, or the parameter of a wrong shape. -/
def shapeQuery (schema : QuerySchema) (pairs : List (String × String)) :
    Except SchemaError (List (String × QueryParameter × Option String)) :=
  schema.parameters.mapM fun (name, parameter) =>
    match supplied parameter (given pairs name) with
    | none => .error ⟨schema.shapeMessage, schema.shapeCode, some name⟩
    | some text => .ok (name, parameter, text)

/-- The value of a parameter. A text that is no whole number is one below the bounds. -/
def queryValue (rules : QueryRules) (name : String) (parameter : QueryParameter)
    (text : Option String) : Except SchemaError QueryValue :=
  match text, parameter.kind with
  | none, _ => .ok parameter.default
  | some text, .integer =>
    let number := (rules.int text).getD (parameter.minimum - 1)
    if parameter.minimum ≤ number ∧ number ≤ parameter.maximum then .ok (.integer number)
    else
      .error ⟨name ++ " must be between " ++ toString parameter.minimum ++ " and "
        ++ toString parameter.maximum, parameter.invalidCode, some name⟩
  | some text, _ => .ok (.text text)

/-- The values of the parameters of a route. -/
abbrev QueryValues := List (String × QueryValue)

/-- The value of a parameter. -/
def QueryValues.item (values : QueryValues) (name : String) : QueryValue :=
  (entry values name).getD .absent

/-- The least name of the query that is no parameter. -/
def unknownName (schema : QuerySchema) (pairs : List (String × String)) : Option String :=
  (((pairs.map (·.1)).filter fun name => (entry schema.parameters name).isNone).mergeSort
    fun first second => first ≤ second).head?

/-- `parse_query` -/
def parseQuery (rules : QueryRules) (schema : QuerySchema) (query : String) :
    Except SchemaError QueryValues :=
  let pairs := parseQsl rules query
  match unknownName schema pairs with
  | some name => .error ⟨"unknown query parameter", .unknownQueryParameter, some name⟩
  | none => do
    let shaped ← shapeQuery schema pairs
    shaped.mapM fun (name, parameter, text) => do
      let value ← queryValue rules name parameter text
      return (name, value)

/-! ### Bodies -/

/-- A member of a decoded body. A number with a fraction or an exponent is a float, which may be
infinite. -/
inductive BodyValue where
  | null
  | bool (value : Bool)
  | integer (value : ℤ)
  | float (value : Option ℚ)
  | text (value : String)
  | nested
  deriving DecidableEq

/-- A decoded body: an object with its members, or something else. -/
inductive Payload where
  | object (members : List (String × BodyValue))
  | other

/-- The kind of a field. -/
inductive BodyKind where
  | alias
  | enum
  | text
  | timestamp
  | integer
  | number
  deriving DecidableEq

/-- One accepted field of a body. -/
structure BodyField where
  kind : BodyKind
  nullable : Bool := false
  values : Option (List BodyValue) := none
  minimum : Option ℚ := none
  maximum : Option ℚ := none

/-- Whether a whole number has a float: those from the half step above the largest float on
overflow. -/
def fitsFloat (value : ℤ) : Bool := value.natAbs < 2 ^ 1024 - 2 ^ 970

/-- `BodyField.well_typed` -/
def BodyField.wellTyped (field : BodyField) (value : BodyValue) : Bool :=
  match value, field.kind with
  | .null, _ => field.nullable
  | .text _, .alias | .text _, .enum | .text _, .text | .text _, .timestamp => true
  | _, .alias | _, .enum | _, .text | _, .timestamp => false
  | .integer _, .integer | .integer _, .number | .float _, .number => true
  | _, _ => false

/-- Whether a number is finite and inside the bounds of a field. -/
def BodyField.inBounds (field : BodyField) (value : BodyValue) : Bool :=
  match field.minimum with
  | none => true
  | some minimum =>
    match value with
    | .integer number =>
      fitsFloat number && minimum ≤ number && field.maximum.all ((number : ℚ) ≤ ·)
    | .float (some number) => minimum ≤ number && field.maximum.all (number ≤ ·)
    | _ => false

/-- `BodyField.accepts` of a value of the right type. -/
def BodyField.accepts (field : BodyField) (value : BodyValue) : Bool :=
  match value, field.kind with
  | .null, _ => true
  | .text text, .alias => isSafeAlias text
  | .text text, .text => field.maximum.all (((pyStrip text).length : ℚ) ≤ ·)
  | _, _ =>
    match field.values with
    | some values => values.contains value
    | none => field.inBounds value

/-- The object that a route accepts. -/
structure BodySchema where
  fields : List (String × BodyField)
  exactKeys : Bool := true
  empty : Bool := false

/-- `BodySchema.accepts_keys` -/
def BodySchema.acceptsKeys (schema : BodySchema) (keys : List String) : Bool :=
  let known := keys.all fun key => (entry schema.fields key).isSome
  if schema.empty then keys = []
  else if schema.exactKeys then known && schema.fields.all fun field => keys.contains field.1
  else keys ≠ [] && known

/-- The members of an accepted body. -/
abbrev Body := List (String × BodyValue)

/-- The value of a member. -/
def Body.item (body : Body) (name : String) : BodyValue := (entry body name).getD .null

/-- Checks one member of a body. -/
def BodySchema.checkMember (schema : BodySchema) (member : String × BodyValue) :
    Except SchemaError Unit :=
  match entry schema.fields member.1 with
  | none => .ok ()
  | some field =>
    if field.wellTyped member.2 = false then
      .error ⟨member.1 ++ " has the wrong type", .invalidSchema, some member.1⟩
    else if field.accepts member.2 = false then
      .error ⟨member.1 ++ " is not an accepted value", .invalidSettings, some member.1⟩
    else .ok ()

/-- `validate_body` -/
def validateBody (schema : BodySchema) (payload : Payload) : Except SchemaError Body :=
  match payload with
  | .other => .error ⟨"request body does not match the route schema", .invalidSchema, none⟩
  | .object members =>
    if schema.acceptsKeys (members.map (·.1)) then do
      members.forM schema.checkMember
      return members
    else .error ⟨"request body does not match the route schema", .invalidSchema, none⟩

end Mocop.Web
