/-! The kinds of failure that callers tell apart. -/
namespace DocBase

inductive ErrorKind
  | missingField | typeMismatch | constraintViolation | unknownField
  | duplicateKey | notFound | schemaConflict | documentTooLarge
  | collectionNotFound | invalidCollectionName | tooManyCollections
  | databaseClosed | databaseNotFound
  | ioFailure | capacityExceeded | storeClosed | corruption
  | unknownDriver | invalidConfig
  | invalidQuery
  | tooManyConnections | connectionClosed | malformedRequest
  | internal
  deriving DecidableEq, Repr

namespace ErrorKind

def names : List (ErrorKind × String) :=
  [(missingField, "MissingField"), (typeMismatch, "TypeMismatch"),
   (constraintViolation, "ConstraintViolation"), (unknownField, "UnknownField"),
   (duplicateKey, "DuplicateKey"), (notFound, "NotFound"), (schemaConflict, "SchemaConflict"),
   (documentTooLarge, "DocumentTooLarge"), (collectionNotFound, "CollectionNotFound"),
   (invalidCollectionName, "InvalidCollectionName"), (tooManyCollections, "TooManyCollections"),
   (databaseClosed, "DatabaseClosed"), (databaseNotFound, "DatabaseNotFound"),
   (ioFailure, "IoFailure"), (capacityExceeded, "CapacityExceeded"), (storeClosed, "StoreClosed"),
   (corruption, "Corruption"), (unknownDriver, "UnknownDriver"), (invalidConfig, "InvalidConfig"),
   (invalidQuery, "InvalidQuery"), (tooManyConnections, "TooManyConnections"),
   (connectionClosed, "ConnectionClosed"), (malformedRequest, "MalformedRequest"),
   (internal, "Internal")]

def name (k : ErrorKind) : String := (names.lookup k).getD ""

def ofName? (s : String) : Option ErrorKind := (names.find? (·.2 == s)).map Prod.fst

/-- Repeating the same call may succeed. -/
def isRetryable (k : ErrorKind) : Bool := k = tooManyConnections

def isValidation (k : ErrorKind) : Bool :=
  [missingField, typeMismatch, constraintViolation, unknownField].contains k

/-- The caller's input is at fault. -/
def isUserError (k : ErrorKind) : Bool :=
  k.isValidation || [duplicateKey, notFound, schemaConflict, documentTooLarge, collectionNotFound,
    invalidCollectionName, invalidQuery, unknownDriver, invalidConfig, malformedRequest].contains k

end ErrorKind

/-- What every failure tells: its kind, and a sentence about it. -/
class Failure (ε : Type) where
  kind : ε → ErrorKind
  message : ε → String

end DocBase
