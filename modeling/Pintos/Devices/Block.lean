import Mathlib

/-!
# Block devices

`devices/block.h`: a block device is read and written a sector at a time.
-/

namespace Pintos

def blockSectorSize : Nat := 512

end Pintos
