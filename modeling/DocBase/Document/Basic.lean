import DocBase.Value.Path

/-! Documents: fields together with an identifier and two clock readings that the
engine assigns. -/
namespace DocBase

structure Document where
  id : Option String := none
  fields : Fields := []
  createdAt : Option Int64 := none
  updatedAt : Option Int64 := none
  deriving Inhabited

namespace Document

def idField : String := "_id"
def createdField : String := "_created_at"
def updatedField : String := "_updated_at"

/-- Names that begin with an underscore belong to the engine. -/
def isReserved (name : String) : Bool := name.toList.head? == some '_'

def get? (d : Document) (path : String) : Option Value := (Value.object d.fields).get? path

/-- As `get?`, and the assigned fields under their reserved names. -/
def lookup (d : Document) (path : String) : Option Value :=
  if path = idField then d.id.map .string
  else if path = createdField then d.createdAt.map .int
  else if path = updatedField then d.updatedAt.map .int
  else d.get? path

def contains (d : Document) (path : String) : Bool := (d.get? path).isSome

def set (d : Document) (name : String) (v : Value) : Document :=
  { d with fields := d.fields.insert name v }

def remove (d : Document) (name : String) : Document := { d with fields := d.fields.erase name }

def stripReserved (d : Document) : Document :=
  { d with fields := d.fields.filter fun (k, _) => !isReserved k }

def same (a b : Document) : Bool :=
  a.id == b.id && a.createdAt == b.createdAt && a.updatedAt == b.updatedAt
    && Value.compareFields a.fields b.fields == .eq

end Document
end DocBase
