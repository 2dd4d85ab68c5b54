import Mathlib.Init

/-!
Contract: the Linux error numbers that the sources return, negated, as error codes, or
pass to `stop()` as exit codes.

Owns: the values of `errno.h` that the modelled code names.

Does not own: `errno` itself; the C library calls modelled here return -1 on failure and
no modelled code reads `errno`.
-/

set_option autoImplicit false

namespace Libcamera

/-- `EIO` of Linux's `errno.h`. -/
def EIO : Int := 5

/-- `EEXIST` of Linux's `errno.h`. -/
def EEXIST : Int := 17

/-- `EINVAL` of Linux's `errno.h`. -/
def EINVAL : Int := 22

/-- `ERANGE` of Linux's `errno.h`. -/
def ERANGE : Int := 34

end Libcamera
