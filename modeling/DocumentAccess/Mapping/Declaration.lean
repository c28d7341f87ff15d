import DocumentAccess.Mapping

/-!
# Declared mappings

The ways to declare field mappings: as mappings, as entries under domain names, or by a model whose
fields say how they are stored. All of them end in a list of mappings; an unknown transformer is
refused.
-/

namespace DocumentAccess

/-- A declared transformer. -/
inductive TransformerChoice where
  | unset
  | named (name : String)
  | given (t : Transformer)
deriving Inhabited

/-- The transformer that a declaration names. -/
def TransformerChoice.resolve : TransformerChoice → Except Error (Option Transformer)
  | unset => .ok none
  | named name => do return some (← Transformer.ofName name)
  | given t => .ok (some t)

/-- A name that counts only if it is not empty. -/
def nonempty? (name : Option String) : Option String := name.filter fun s => !s.isEmpty

/-! ## Entries -/

/-- A mapping as an entry: everything may be left out. -/
structure MappingEntry where
  domainName : Option String
  name : Option String
  storageName : Option String
  transformer : TransformerChoice
deriving Inhabited

/-- The mapping of an entry for a domain name; an empty stored name counts as left out. -/
def MappingEntry.toMapping (e : MappingEntry) (domain : String) : Except Error FieldMapping := do
  let storage := ((nonempty? e.name).orElse fun _ => nonempty? e.storageName).getD domain
  return ⟨domain, some storage, ← e.transformer.resolve⟩

/-- A declared mapping. -/
inductive MappingDeclaration where
  | mapping (m : FieldMapping)
  | entry (e : MappingEntry)
deriving Inhabited

/-- The mapping of a declaration under a domain name, or of one that names its domain itself. -/
def MappingDeclaration.toMapping (domain : Option String) :
    MappingDeclaration → Except Error FieldMapping
  | mapping m => .ok m
  | entry e =>
    match domain.orElse fun _ => e.domainName with
    | some name => e.toMapping name
    | none => .error (.mismatch (.missingKey (.str "domain_name")))

/-! ## Models -/

/-- How the fields of a model say how they are stored. -/
inductive ModelKind where
  /-- Fields have an alias. -/
  | aliased
  /-- Fields carry remarks, one of them the stored name. -/
  | annotated
  /-- Fields say nothing. -/
  | silent
deriving DecidableEq, Inhabited

/-- A field of a model; a remark may be there without a value. -/
structure ModelField where
  name : String
  storedName : Option (Option String)
  transformer : Option TransformerChoice
deriving Inhabited

/-- A model of stored documents. -/
structure ModelClass where
  kind : ModelKind
  name : String
  fields : List ModelField
deriving Inhabited

namespace ModelField

/-- The transformer of a field. -/
def resolveTransformer (f : ModelField) : Except Error (Option Transformer) :=
  (f.transformer.getD .unset).resolve

/-- The mapping of a field with an alias: there is one if the alias or the transformer says
something. -/
def aliasedMapping (f : ModelField) : Except Error (Option FieldMapping) := do
  let transformer ← f.resolveTransformer
  let storedName := nonempty? f.storedName.join
  if storedName.isSome || transformer.isSome then
    return some ⟨f.name, some (storedName.getD f.name), transformer⟩
  else return none

/-- The mapping of a field with remarks: there is one if a remark is there, and its stored name is
taken as it is. -/
def annotatedMapping (f : ModelField) : Except Error (Option FieldMapping) := do
  if f.storedName.isSome || f.transformer.isSome then
    return some ⟨f.name, f.storedName.getD (some f.name), ← f.resolveTransformer⟩
  else return none

end ModelField

/-- The mappings that a model's fields declare. -/
def ModelClass.mappings (m : ModelClass) : Except Error (List FieldMapping) :=
  match m.kind with
  | .aliased => do return (← m.fields.mapM ModelField.aliasedMapping).filterMap id
  | .annotated => do return (← m.fields.mapM ModelField.annotatedMapping).filterMap id
  | .silent => .error (.mismatch (.notModel m.name))

/-! ## Resolvers -/

/-- Where a resolver takes its mappings from. -/
inductive MappingSource where
  | nothing
  | list (declarations : List MappingDeclaration)
  | table (entries : List (String × MappingDeclaration))
  | model (m : ModelClass)
deriving Inhabited

/-- The mappings of a source. -/
def MappingSource.mappings : MappingSource → Except Error (List FieldMapping)
  | nothing => .ok []
  | list declarations => declarations.mapM (·.toMapping none)
  | table entries => (Table.ofList entries).mapM fun (name, d) => d.toMapping (some name)
  | model m => m.mappings

/-- The resolver of a source. -/
def Resolver.ofSource (s : MappingSource) : Except Error Resolver := do
  return Resolver.ofMappings (← s.mappings)

end DocumentAccess
