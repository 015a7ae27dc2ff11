/-! What a store is opened with. -/
namespace DocBase

inductive Durability
  | sync
  | async
  deriving DecidableEq, Repr

def Durability.name : Durability → String
  | sync => "sync"
  | async => "async"

def Durability.ofName? (s : String) : Option Durability := [sync, async].find? (·.name == s)

structure StoreConfig where
  path : Option String := none
  cacheSize : Nat := 1024
  durability : Durability := .async
  maxRecords : Option Nat := none
  maxBytes : Option Nat := none
  deriving DecidableEq

def StoreConfig.at (path : String) : StoreConfig := { path := some path }

end DocBase
