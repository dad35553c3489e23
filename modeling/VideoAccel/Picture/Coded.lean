import VideoAccel.Picture.Avc
import VideoAccel.Picture.Hevc

namespace VideoAccel

inductive CodedPicture
  | avc (picture : Avc.Picture)
  | hevc (picture : Hevc.Picture)
  deriving DecidableEq, Repr

def CodedPicture.standard : CodedPicture → CodingStandard
  | .avc _ => .avc
  | .hevc _ => .hevc

end VideoAccel
