import SparqlClient.Value

/-! What can go wrong: a query cannot be written, a setting is unknown, an exchange with the
store failed, a value was used where its kind has no meaning, or the caller's own step stopped.
Values are kept in the form in which the message shows them. -/

namespace SparqlClient

inductive CompilationError
  | annotatedNonString (kind : TermKind)
  | langAndDatatype
  | unknownDatatype (shown : String)
  | unknownConnector (given : String)
  | unknownOperator (given : String)
  | betweenCount (column : String) (count : Nat)
  | unknownDirection (given : String)
  | unknownAggregate (given : String)
  | separatorNotAllowed
  | aggregateNeedsColumn (function : String)
  | strayNode (shown : String)
  | datatypeNeedsIri (label : String)
  | serviceNeedsEndpoint
  | pathElementNotIri (element path : String)
  | emptyPath
  | looseOptional (path : String)
  | havingOperator (operator : String)
  | emptyUpdate
  | emptyDeleteBatch
  | recordWithoutId
  | emptyInsertBatch
  | unknownTransfer (given : String)
  | noTriples
  | nullBinding
  | tooFewBindings (given : Nat)
  | notAllowedAt (shown position : String)
  | variableInData (shown : String)
  | predicateNotIri (shown : String)
  | missingValue (column : String)
  | invalidLanguage (shown : String)
  | rowMismatch (row names : String)
  | detached
  deriving DecidableEq

inductive ConfigurationError
  | unknownStore (shown : String) (known : List String)
  | unknownAuth (shown : String)
  | invalidNamespace (shown : String)
  | invalidYaml (path : String)
  | notMapping (path : String)
  | namespacesUnsupported (vendor : String)
  deriving DecidableEq

structure ProtocolError where
  vendor : String
  url : String
  reason : String
  status : Option Int
  cause : Option String
  deriving DecidableEq

/-- A value of a kind that has no meaning where it was used. -/
inductive Misuse
  | wrongType
  | noMember
  | badValue
  | missingKey
  | outOfRange
  | overflow
  | undefinedOperation
  | exponentOverflow
  | invalidIri
  | unencodable
  | tooDeep
  deriving DecidableEq

inductive FileError
  | notFound
  | isDirectory
  | notDirectory
  | alreadyExists
  | nameTooLong
  | malformedTriples
  | unknownFormat
  deriving DecidableEq

inductive Error
  | compilation (cause : CompilationError)
  | configuration (cause : ConfigurationError)
  | protocol (failure : ProtocolError)
  | misuse (kind : Misuse)
  | file (kind : FileError)
  | raised (message : String)
  deriving DecidableEq

abbrev Outcome (α : Type) := Except Error α

def CompilationError.fail {α : Type} (cause : CompilationError) : Outcome α :=
  .error (.compilation cause)

def ConfigurationError.fail {α : Type} (cause : ConfigurationError) : Outcome α :=
  .error (.configuration cause)

def ProtocolError.fail {α : Type} (failure : ProtocolError) : Outcome α :=
  .error (.protocol failure)

def Misuse.fail {α : Type} (kind : Misuse) : Outcome α := .error (.misuse kind)

namespace CompilationError

def message : CompilationError → String
  | .annotatedNonString kind =>
    "lang/datatype are only valid on string literals, not " ++ kind.word
  | .langAndDatatype => "a literal cannot carry both a language and a datatype"
  | .unknownDatatype shown => "Unknown datatype " ++ shown
  | .unknownConnector given => "Unknown boolean connector '" ++ given ++ "'"
  | .unknownOperator given => "Unsupported operator '" ++ given ++ "'"
  | .betweenCount column count =>
    "BETWEEN on '" ++ column ++ "' needs exactly two values, got " ++ natText count
  | .unknownDirection given => "Order direction must be 'asc' or 'desc', got '" ++ given ++ "'"
  | .unknownAggregate given => "Unknown aggregate function '" ++ given ++ "'"
  | .separatorNotAllowed => "Only GROUP_CONCAT accepts a separator"
  | .aggregateNeedsColumn function => function ++ " needs a column"
  | .strayNode shown => "Malformed condition node " ++ shown
  | .datatypeNeedsIri label => "DATATYPE filter on '" ++ label ++ "' needs an IRI"
  | .serviceNeedsEndpoint => "SERVICE needs an endpoint IRI"
  | .pathElementNotIri element path =>
    "'" ++ element ++ "' in property path '" ++ path ++ "' is not an IRI"
  | .emptyPath => "empty property path"
  | .looseOptional path =>
    "property path '" ++ path ++ "': '?' is only supported directly after an IRI"
  | .havingOperator operator => "HAVING only supports comparisons, not '" ++ operator ++ "'"
  | .emptyUpdate => "An update needs a DELETE or an INSERT template"
  | .emptyDeleteBatch => "delete_batch needs at least one resource"
  | .recordWithoutId => "every batch record needs an 'id'"
  | .emptyInsertBatch => "insert_batch needs at least one record"
  | .unknownTransfer given => "Unknown graph transfer '" ++ given ++ "'"
  | .noTriples => "no triples to write"
  | .nullBinding => "cannot bind None; use where_null() instead"
  | .tooFewBindings given =>
    "not enough bindings for placeholders (" ++ natText given ++ " given)"
  | .notAllowedAt shown position => shown ++ " cannot be used as a " ++ position
  | .variableInData shown => "variable " ++ shown ++ " cannot appear in bulk data"
  | .predicateNotIri shown => "predicate " ++ shown ++ " must be an IRI"
  | .missingValue column => "where('" ++ column ++ "') needs a value"
  | .invalidLanguage shown => "Invalid language tag " ++ shown
  | .rowMismatch row names => "VALUES row " ++ row ++ " does not match variables " ++ names
  | .detached => "this builder is not attached to a connection"

end CompilationError

namespace ConfigurationError

def message : ConfigurationError → String
  | .unknownStore shown known =>
    "Unknown triple store implementation " ++ shown ++ "; expected one of: " ++
      String.intercalate ", " known
  | .unknownAuth shown =>
    "Unknown auth type " ++ shown ++ "; expected one of: none, basic, digest"
  | .invalidNamespace shown =>
    "Invalid namespace " ++ shown ++ ": only letters, digits, '_' and '-' are allowed"
  | .invalidYaml path => "Invalid YAML in " ++ path
  | .notMapping path => path ++ " must contain a mapping"
  | .namespacesUnsupported vendor => "The " ++ vendor ++ " adapter does not support namespaces"

end ConfigurationError

namespace ProtocolError

def message (e : ProtocolError) : String :=
  "[" ++ e.vendor ++ "] " ++ e.url ++
    (e.status.map fun s => " returned HTTP " ++ intText s).getD "" ++ ": " ++ e.reason

end ProtocolError

def Error.message? : Error → Option String
  | .compilation c => some c.message
  | .configuration c => some c.message
  | .protocol p => some p.message
  | _ => none

end SparqlClient
