import DocBase.Number.Rounding

/-! Byte counts for people to read. -/
namespace DocBase.Text
open scoped Binary64

def sizeUnits : List String := ["KB", "MB", "GB", "TB", "PB"]

/-- Counts from 1024 on are held as a floating-point number and shown in the largest
unit of which there is at least one, with two places, a tie going to the even hundredth. -/
def byteSize (bytes : Nat) : String :=
  let n := Binary64.unitsOf (Binary64.ofInt bytes).magnitude / Binary64.one
  let scaled := sizeUnits.zipIdx.filter fun (_, k) => 1024 ^ (k + 1) ≤ n
  match scaled.getLast? with
  | none => s!"{bytes} B"
  | some (unit, k) =>
    let h := roundDiv (n * 100) (1024 ^ (k + 1))
    s!"{h / 100}.{h % 100 / 10}{h % 10} {unit}"

end DocBase.Text
