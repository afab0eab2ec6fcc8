/-!
# Constants of the library

Return codes, limits and reserved values that several modules share, under
the names of `lsp_types.h` and `lsp_defaults.h`.
-/

namespace Liblsp

def lspErrNone : Int := 0
def lspErr : Int := 1
def lspErrNomem : Int := 2
def lspErrMutex : Int := 3
def lspErrTimeout : Int := 4
def lspErrInvalid : Int := 5
def lspErrResourceInUse : Int := 5
def lspErrQueueFull : Int := 10
def lspErrQueueEmpty : Int := 11
def lspErrPortInUse : Int := 20
def lspErrPortInvalid : Int := 21

/-- The timeout that means waiting forever. -/
def lspTimeoutMax : UInt32 := 4294967295

end Liblsp
