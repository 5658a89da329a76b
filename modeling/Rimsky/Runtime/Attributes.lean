import Rimsky.Foundation.Spec
import Rimsky.Graph.Substitution

/-!
# Resolving the attributes of a dispatch

A bag is resolved in two rounds (`runtime/runner_dispatch.go`). At the gate, before any
claim exists, `substituteAttributesSchemaWith` substitutes every source over the bag
carried forward from the node's previous run and leaves out the sources it finds to be
late bound. At dispatch `fillClaimRefs` substitutes what was left out, with the claims
and the partition key of the acquisition.
-/

namespace Rimsky

def firstConcreteSchemaType : Option Json → String
  | some (.str name) => name
  | some (.arr items) =>
    (items.findSome? fun item =>
      match item with
      | .str name => if name ≠ "null" then some name else none
      | _ => none).getD ""
  | _ => ""

def emptyValueForSchemaType (typeName : String) : Json :=
  if typeName = "number" ∨ typeName = "integer" then .num "0"
  else if typeName = "boolean" then .bool false
  else if typeName = "array" then .arr []
  else if typeName = "object" then .obj []
  else .str ""

def emptyValueForSchemaProperty (prop : SchemaProperty) : Json :=
  emptyValueForSchemaType (firstConcreteSchemaType prop.type)

/-- The value stored for a substituted source: a null becomes the empty value of the type. -/
def storedValue (prop : SchemaProperty) : Json → Json
  | .null => emptyValueForSchemaProperty prop
  | value => value

def sourceReferencesLateBound (source : String) : Bool :=
  decide ("claim.".toList <:+: source.toList) || decide ("child.".toList <:+: source.toList)

/-- One turn of the loop of `substituteAttributesSchemaWith`. -/
def substituteProperty (rctx : ResolveContext) (deferClaimRefs : Bool) (out : Bag)
    (entry : String × SchemaProperty) : Except SubstitutionError Bag :=
  let (name, prop) := entry
  match prop.source, prop.default with
  | some source, _ =>
    if source = "" then .ok out
    else match substituteValue source rctx with
      | .ok value => .ok (out.set name (storedValue prop value))
      | .error error =>
        if deferClaimRefs && error.isMissingSource && sourceReferencesLateBound source then
          .ok out
        else .error (error.withField name)
  | none, some default => .ok (if out.has name then out else out.set name default)
  | none, none => .ok out

def substituteAttributesSchemaWith (schema : Option AttributeSchema) (rctx : ResolveContext)
    (carryForward : Bag) (deferClaimRefs : Bool) : Except SubstitutionError Bag :=
  match schema.bind (·.properties) with
  | none => .ok []
  | some properties => properties.foldlM (substituteProperty rctx deferClaimRefs) carryForward

/-- One turn of the loop of `fillClaimRefs`. -/
def fillProperty (rctx : ResolveContext) (out : Bag) (entry : String × SchemaProperty) :
    Except SubstitutionError Bag :=
  let (name, prop) := entry
  if out.has name then .ok out
  else match prop.source with
    | none => .ok out
    | some source =>
      if source = "" || !sourceReferencesLateBound source then .ok out
      else match substituteValue source rctx with
        | .ok value => .ok (out.set name (storedValue prop value))
        | .error error => .error (error.withField name)

def fillClaimRefs (schema : Option AttributeSchema) (rctx : ResolveContext) (partialBag : Bag) :
    Except SubstitutionError Bag :=
  match schema.bind (·.properties) with
  | none => .ok partialBag
  | some properties => properties.foldlM (fillProperty rctx) partialBag

def mergeSchemaDefaultsForDispatch (schema : Option AttributeSchema) (bag : Bag) : Bag :=
  match schema.bind (·.properties) with
  | none => bag
  | some properties =>
    properties.foldl (fun out (entry : String × SchemaProperty) =>
      match entry.2.default with
      | some default => if out.has entry.1 then out else out.set entry.1 default
      | none => out) bag

/-- One property of the node's schema laid over the one below it. -/
def mergeSchemaProperty (existing nodeProp : SchemaProperty) : SchemaProperty where
  type := nodeProp.type.or existing.type
  source := nodeProp.source.or (if nodeProp.default.isSome then none else existing.source)
  default := nodeProp.default.or (if nodeProp.source.isSome then none else existing.default)

/-- `MergeAttributeDefaults`: the executor's schema, the template's defaults, the node's schema. -/
def mergeAttributeDefaults (execSchema : Option AttributeSchema) (l1Defaults : Bag)
    (nodeSchema : Option AttributeSchema) : AttributeSchema :=
  let base : List (String × SchemaProperty) := (execSchema.bind (·.properties)).getD []
  let withDefaults := l1Defaults.foldl (fun props (entry : String × Json) =>
    let prop := (List.lookup entry.1 props).getD {}
    (entry.1, { prop with default := some entry.2 }) ::
      props.filter (fun other => other.1 ≠ entry.1)) base
  let nodeProps := (nodeSchema.bind (·.properties)).getD []
  { properties := some <| nodeProps.foldl (fun props (entry : String × SchemaProperty) =>
      let merged := match List.lookup entry.1 props with
        | some existing => mergeSchemaProperty existing entry.2
        | none => entry.2
      (entry.1, merged) :: props.filter (fun other => other.1 ≠ entry.1)) withDefaults }

end Rimsky
