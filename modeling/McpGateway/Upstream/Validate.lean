import McpGateway.Foundation.Json

/-!
# Validation of upstream tools

`ValidateTool` and `ValidatePrompt` with the texts of their errors.  `addToolAccepts_of_valid`: a tool
that passes meets the precondition of the SDK's `AddTool`.
-/

namespace McpGateway.Upstream

open Go

/-- A tool as an upstream lists it.  The SDK decodes the schemas into values of type `any`. -/
structure Tool where
  name : String
  title : String := ""
  description : String := ""
  inputSchema : Any := .nil
  outputSchema : Any := .nil
  metadata : Option (List (String × Any)) := none

structure PromptArgument where
  name : String
  title : String := ""
  description : String := ""
  required : Bool := false
  deriving DecidableEq, Repr

structure Prompt where
  name : String
  title : String := ""
  description : String := ""
  arguments : List (Option PromptArgument) := []
  metadata : Option (List (String × Any)) := none

inductive InvalidToolPolicy where
  | filterOut
  | rejectServer
  deriving DecidableEq, Repr

structure InvalidInfo where
  name : String
  errors : List String
  deriving DecidableEq, Repr

def validJSONSchemaTypes : List String :=
  ["string", "number", "integer", "boolean", "array", "object", "null"]

/-- The type and the properties of a schema that is a JSON object; a type that is no string reads as
the empty one, and properties that are no object as none. -/
def extractSchema (schema : Any) : Option (String × Option (List (String × Any))) :=
  schema.asMap.map fun m =>
    (((m.lookup "type").bind Any.asString).getD "", (m.lookup "properties").bind Any.asMap)

def propertyError (path propName : String) (propValue : Any) : Option String :=
  match propValue.asMap with
  | none =>
    some (path ++ ".properties[" ++ quote propName ++ "] must be an object, got " ++ propValue.typeName)
  | some propMap =>
    match propMap.lookup "type" with
    | none => none
    | some typeVal =>
      match typeVal.asString with
      | none =>
        some (path ++ ".properties[" ++ quote propName ++ "].type must be a string, got " ++
          typeVal.typeName)
      | some typeStr =>
        if validJSONSchemaTypes.contains typeStr then none
        else some (path ++ ".properties[" ++ quote propName ++ "].type " ++ quote typeStr ++
          " is not a valid JSON Schema type")

/-- The errors of a schema under the field `path`. -/
def validateSchema (path schemaType : String) (properties : Option (List (String × Any))) :
    List String :=
  (if schemaType ≠ "object" then
    [path ++ ".type must be \"object\", got " ++ quote schemaType] else []) ++
  (properties.getD []).filterMap fun p => propertyError path p.1 p.2

def inputErrors (tool : Tool) : List String :=
  if tool.inputSchema.isNil then ["inputSchema is required"]
  else
    match extractSchema tool.inputSchema with
    | none => ["inputSchema must be a JSON object, got " ++ tool.inputSchema.typeName]
    | some (t, props) => validateSchema "inputSchema" t props

/-- The errors of the output schema, which is only looked at when it is an object with a type or
with properties. -/
def outputErrors (tool : Tool) : List String :=
  match extractSchema tool.outputSchema with
  | none => []
  | some (t, props) =>
    if t ≠ "" ∨ props.isSome then validateSchema "outputSchema" t props else []

def validateTool (tool : Tool) : InvalidInfo where
  name := tool.name
  errors := (if tool.name = "" then ["name must not be empty"] else []) ++ inputErrors tool ++
    outputErrors tool

def partitionValid {α : Type} (check : α → InvalidInfo) (xs : List α) : List α × List InvalidInfo :=
  (xs.filter fun x => (check x).errors.isEmpty, (xs.map check).filter fun info => !info.errors.isEmpty)

def validateTools (tools : List Tool) : List Tool × List InvalidInfo :=
  partitionValid validateTool tools

def argumentErrors (args : List (Option PromptArgument)) : List String :=
  args.zipIdx.filterMap fun a =>
    if a.1.map PromptArgument.name = some "" then
      some ("arguments[" ++ itoa a.2 ++ "].name must not be empty")
    else none

def validatePrompt (prompt : Prompt) : InvalidInfo where
  name := prompt.name
  errors := (if prompt.name = "" then ["name must not be empty"] else []) ++
    argumentErrors prompt.arguments

def validatePrompts (prompts : List Prompt) : List Prompt × List InvalidInfo :=
  partitionValid validatePrompt prompts

/-! ## What the SDK requires of a tool -/

/-- A JSON object whose `type` is `"object"`. -/
def isObjectSchema (schema : Any) : Bool :=
  match schema.asMap with
  | some m => ((m.lookup "type").bind Any.asString) == some "object"
  | none => false

/-- The precondition of `Server.AddTool`; it panics on any other tool. -/
def addToolAccepts (tool : Tool) : Bool :=
  isObjectSchema tool.inputSchema &&
    (tool.outputSchema.isNil || isObjectSchema tool.outputSchema)

/-- An output schema that is there and that the validator does not look at: it is no object, or an
object with neither a string as its type nor an object as its properties. -/
def uncheckedOutput (tool : Tool) : Bool :=
  !tool.outputSchema.isNil &&
    (match extractSchema tool.outputSchema with
      | none => true
      | some (t, props) => t == "" && !props.isSome)

variable {schema : Any}

lemma extractSchema_eq_none : extractSchema schema = none ↔ schema.asMap = none := by
  simp [extractSchema]

variable {props : Option (List (String × Any))}

lemma validateSchema_type {path t : String}
    (h : validateSchema path t props = []) : t = "object" := by
  by_contra hne
  simp [validateSchema, hne] at h

lemma isObjectSchema_of_extract
    (h : extractSchema schema = some ("object", props)) : isObjectSchema schema = true := by
  obtain ⟨m, hm, hpair⟩ := map_eq_some_iff.1 h
  have htype : ((m.lookup "type").bind Any.asString).getD "" = "object" := congrArg Prod.fst hpair
  cases hs : (m.lookup "type").bind Any.asString with
  | none => simp [hs] at htype
  | some s =>
    have hobj : s = "object" := by simpa [hs] using htype
    simp [isObjectSchema, hm, hs, hobj]

lemma isObjectSchema_extract (h : isObjectSchema schema = true) :
    ∃ props, extractSchema schema = some ("object", props) := by
  unfold isObjectSchema at h
  cases hm : schema.asMap with
  | none => simp [hm] at h
  | some m =>
    have htype : (m.lookup "type").bind Any.asString = some "object" := by simpa [hm] using h
    exact ⟨(m.lookup "properties").bind Any.asMap, by simp [extractSchema, hm, htype]⟩

variable {tool : Tool}

lemma isObjectSchema_of_inputErrors (h : inputErrors tool = []) :
    isObjectSchema tool.inputSchema = true := by
  unfold inputErrors at h
  split at h
  · simp at h
  · split at h
    next => simp at h
    next t props hx =>
      have ht : t = "object" := validateSchema_type h
      subst ht
      exact isObjectSchema_of_extract hx

lemma outputAccepted_of_outputErrors (h : outputErrors tool = []) :
    (tool.outputSchema.isNil || isObjectSchema tool.outputSchema) = !uncheckedOutput tool := by
  unfold outputErrors at h
  cases hx : extractSchema tool.outputSchema with
  | none =>
    -- no object: only an absent schema is accepted
    have hm : tool.outputSchema.asMap = none := extractSchema_eq_none.1 hx
    simp [uncheckedOutput, hx, isObjectSchema, hm]
  | some p =>
    obtain ⟨t, props⟩ := p
    simp only [hx] at h
    split at h
    next hlook =>
      have ht : t = "object" := validateSchema_type h
      subst ht
      simp [uncheckedOutput, hx, isObjectSchema_of_extract hx]
    next hlook =>
      obtain ⟨rfl, hprops⟩ : t = "" ∧ props.isSome = false := by simpa using hlook
      have hno : isObjectSchema tool.outputSchema = false := by
        by_contra hyes
        obtain ⟨props', hx'⟩ := isObjectSchema_extract (by simpa using hyes)
        simp [hx] at hx'
      simp [uncheckedOutput, hx, hprops, hno]

lemma addToolAccepts_of_valid (h : (validateTool tool).errors = []) :
    addToolAccepts tool = !uncheckedOutput tool := by
  have hin : inputErrors tool = [] := by simp [validateTool] at h; exact h.2.1
  have hout : outputErrors tool = [] := by simp [validateTool] at h; exact h.2.2
  rw [addToolAccepts, isObjectSchema_of_inputErrors hin, Bool.true_and]
  exact outputAccepted_of_outputErrors hout

lemma mem_partitionValid {α : Type} {check : α → InvalidInfo} {xs : List α} {x : α}
    (h : x ∈ (partitionValid check xs).1) : x ∈ xs ∧ (check x).errors = [] := by
  simpa [partitionValid] using h

lemma partitionValid_of_no_invalid {α : Type} {check : α → InvalidInfo} {xs : List α}
    (h : (partitionValid check xs).2 = []) {x : α} (hx : x ∈ xs) : (check x).errors = [] := by
  have hall := List.filter_eq_nil_iff.1 h (check x) (mem_map.2 ⟨x, hx, rfl⟩)
  simpa using hall

end McpGateway.Upstream
