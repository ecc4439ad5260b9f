import GPhoto2.File.CameraFile
import GPhoto2.File.MemoryFile

/-!
# `GPhoto2.File.FileName`: the names under which a frontend saves

`gp_file_get_name_by_type` makes a name out of the name of a picture and the kind of data that is to
be saved. The kind gives what is put in front, the mime type what is put behind.
-/

set_option autoImplicit false

namespace GPhoto2

/-- The first suffix of a mime type. -/
def mimeSuffix (mimeType : CString) : Option CString :=
  (mimeTable.find? fun entry => entry.2 == mimeType).map Prod.fst

/-- What `gp_file_get_name_by_type` puts in front of the name. -/
def CameraFileType.inFront : CameraFileType → CString
  | .raw => "raw_".toList
  | .exif => "exif_".toList
  | .preview => "thumb_".toList
  | .metadata => "meta_".toList
  | .audio => "audio_".toList
  | _ => []

/-- The name behind its last dot. -/
def behindLastDot (name : CString) : CString := (name.reverse.takeWhile (· != '.')).reverse

/-- `gp_file_get_name_by_type`. -/
def gpFileGetNameByType (file : CameraFile) (basename : CString) (type : CameraFileType) :
    CString :=
  -- the easy case, always map 1:1, if it has a suffix already
  if type = .normal ∧ '.' ∈ basename then
    basename
  else if '.' ∈ basename then
    type.inFront ++ uptoLastDot basename ++
      (mimeSuffix file.mimeType).getD (behindLastDot basename)
  else
    let suffix := (mimeSuffix file.mimeType).getD []
    type.inFront ++ basename ++ if suffix ≠ [] then '.' :: suffix else []

end GPhoto2
