/-!
# `GPhoto2.Result`: result codes

The `GP_ERROR_*` numbers of `gphoto2-port-result.h` and `gphoto2-result.h`. A C function
returns a value that is at least `GP_OK = 0`, or one of these negative codes; the model
returns `Except Int α` with the code as the error. A driver may return any negative number,
so the codes stay integers.
-/

set_option autoImplicit false

namespace GPhoto2

def gpError : Int := -1
def gpErrorBadParameters : Int := -2
def gpErrorNoMemory : Int := -3
def gpErrorLibrary : Int := -4
def gpErrorUnknownPort : Int := -5
def gpErrorNotSupported : Int := -6
def gpErrorIo : Int := -7
def gpErrorTimeout : Int := -10
def gpErrorIoRead : Int := -34
def gpErrorIoWrite : Int := -35
def gpErrorCorruptedData : Int := -102
def gpErrorNoSpace : Int := -115
def gpErrorFileExists : Int := -103
def gpErrorModelNotFound : Int := -105
def gpErrorDirectoryNotFound : Int := -107
def gpErrorFileNotFound : Int := -108
def gpErrorDirectoryExists : Int := -109
def gpErrorCameraBusy : Int := -110
def gpErrorPathNotAbsolute : Int := -111
def gpErrorCancel : Int := -112
def gpErrorOsFailure : Int := -114

end GPhoto2
