import VideoAccel.Rkv.Avc
import VideoAccel.Rkv.Hevc
import VideoAccel.Vdpu34x.Avc
import VideoAccel.Vdpu34x.Hevc

namespace VideoAccel.Generation

def avc : Generation → Strategy Avc.Picture
  | .rkv => Rkv.Avc.strategy
  | .vdpu34x => Vdpu34x.Avc.strategy

def hevc : Generation → Strategy Hevc.Picture
  | .rkv => Rkv.Hevc.strategy
  | .vdpu34x => Vdpu34x.Hevc.strategy

def blankImage : Generation → RegisterImage
  | .rkv => Rkv.blankImage
  | .vdpu34x => Vdpu34x.blankImage

def clearStatus : Generation → List RegisterWrite
  | .rkv => Rkv.clearStatus
  | .vdpu34x => Vdpu34x.clearStatus

def supportsLayout (g : Generation) (layout : FrameLayout) : Bool :=
  match g with
  | .rkv => layout == .raster
  | .vdpu34x => true

def defaultAlignment : Generation → AlignmentClass
  | .rkv => .align16
  | .vdpu34x => .align16

def alignmentFor (g : Generation) (width : Nat) (layout : FrameLayout) : AlignmentClass :=
  match g with
  | .rkv => Rkv.alignmentFor width
  | .vdpu34x => Vdpu34x.alignmentFor width layout

/-- The batch that sends an image with the address offsets among the patches, and reads the
status. -/
def queue (g : Generation) (image : RegisterImage) (patches : Batch) : Batch :=
  match g with
  | .rkv => Rkv.queue image patches
  | .vdpu34x => Vdpu34x.queue image patches

def decodeStatus (g : Generation) (r : Readback) : HardwareStatus :=
  match g with
  | .rkv => Rkv.decodeStatus r
  | .vdpu34x => Vdpu34x.decodeStatus r

end VideoAccel.Generation
