import Mathlib.Algebra.Group.Int

/-!
Contract: the values that libcamera's tests return, `TestPass`, `TestFail` and `TestSkip` of
`test/test.h`, which is not among the sources.

Owns: the three values, as the tests' `run()` and `main()` return them.

Does not own: `Test::execute()` or the test runner that reads the values.
-/

set_option autoImplicit false

namespace Libcamera

/-- `TestPass` of `test.h`. -/
def TestPass : Int := 0

/-- `TestFail` of `test.h`. -/
def TestFail : Int := -1

/-- `TestSkip` of `test.h`, the exit code that tells the test runner a test was skipped. -/
def TestSkip : Int := 77

end Libcamera
