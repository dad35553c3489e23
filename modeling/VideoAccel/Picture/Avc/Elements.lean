import VideoAccel.Picture.Avc

namespace VideoAccel.Avc

/-- The scalar elements of a reference, as with the parameters. -/
def RefFrame.elements : List (String × (Int → RefFrame → RefFrame)) :=
  [("long_term", fun v r => { r with longTerm := v != 0 }),
    ("frame_idx", fun v r => { r with frameIdx := UInt16.ofInt v }),
    ("top_poc", fun v r => { r with topPoc := Int32.ofInt v }),
    ("bottom_poc", fun v r => { r with bottomPoc := Int32.ofInt v }),
    ("top_used", fun v r => { r with topUsed := v != 0 }),
    ("bottom_used", fun v r => { r with bottomUsed := v != 0 }),
    ("non_existing", fun v r => { r with nonExisting := v != 0 })]

namespace Params

/-- Each element with the parameters that have it set to a value; a flag is set by any value but
zero. -/
def elements : List (String × (Int → Params → Params)) :=
  [("profile_idc", fun v p => { p with profileIdc := UInt8.ofInt v }),
    ("constraint_set3_flag", fun v p => { p with constraintSet3Flag := v != 0 }),
    ("chroma_format_idc", fun v p => { p with chromaFormatIdc := UInt8.ofInt v }),
    ("bit_depth_luma_minus8", fun v p => { p with bitDepthLumaMinus8 := UInt8.ofInt v }),
    ("bit_depth_chroma_minus8", fun v p => { p with bitDepthChromaMinus8 := UInt8.ofInt v }),
    ("qpprime_y_zero_transform_bypass_flag",
      fun v p => { p with qpprimeYZeroTransformBypassFlag := v != 0 }),
    ("log2_max_frame_num_minus4", fun v p => { p with log2MaxFrameNumMinus4 := UInt8.ofInt v }),
    ("max_num_ref_frames", fun v p => { p with maxNumRefFrames := UInt8.ofInt v }),
    ("pic_order_cnt_type", fun v p => { p with picOrderCntType := UInt8.ofInt v }),
    ("log2_max_pic_order_cnt_lsb_minus4",
      fun v p => { p with log2MaxPicOrderCntLsbMinus4 := UInt8.ofInt v }),
    ("delta_pic_order_always_zero_flag",
      fun v p => { p with deltaPicOrderAlwaysZeroFlag := v != 0 }),
    ("pic_width_in_mbs_minus1", fun v p => { p with picWidthInMbsMinus1 := UInt16.ofInt v }),
    ("frame_height_in_mbs_minus1", fun v p => { p with frameHeightInMbsMinus1 := UInt16.ofInt v }),
    ("frame_mbs_only_flag", fun v p => { p with frameMbsOnlyFlag := v != 0 }),
    ("mb_adaptive_frame_field_flag", fun v p => { p with mbAdaptiveFrameFieldFlag := v != 0 }),
    ("direct_8x8_inference_flag", fun v p => { p with direct8x8InferenceFlag := v != 0 }),
    ("entropy_coding_mode_flag", fun v p => { p with entropyCodingModeFlag := v != 0 }),
    ("bottom_field_pic_order_in_frame_present_flag",
      fun v p => { p with bottomFieldPicOrderInFramePresentFlag := v != 0 }),
    ("num_ref_idx_l0_default_active_minus1",
      fun v p => { p with numRefIdxL0DefaultActiveMinus1 := UInt8.ofInt v }),
    ("num_ref_idx_l1_default_active_minus1",
      fun v p => { p with numRefIdxL1DefaultActiveMinus1 := UInt8.ofInt v }),
    ("weighted_pred_flag", fun v p => { p with weightedPredFlag := v != 0 }),
    ("weighted_bipred_idc", fun v p => { p with weightedBipredIdc := UInt8.ofInt v }),
    ("pic_init_qp_minus26", fun v p => { p with picInitQpMinus26 := Int8.ofInt v }),
    ("pic_init_qs_minus26", fun v p => { p with picInitQsMinus26 := Int8.ofInt v }),
    ("chroma_qp_index_offset", fun v p => { p with chromaQpIndexOffset := Int8.ofInt v }),
    ("second_chroma_qp_index_offset",
      fun v p => { p with secondChromaQpIndexOffset := Int8.ofInt v }),
    ("deblocking_filter_control_present_flag",
      fun v p => { p with deblockingFilterControlPresentFlag := v != 0 }),
    ("constrained_intra_pred_flag", fun v p => { p with constrainedIntraPredFlag := v != 0 }),
    ("redundant_pic_cnt_present_flag", fun v p => { p with redundantPicCntPresentFlag := v != 0 }),
    ("transform_8x8_mode_flag", fun v p => { p with transform8x8ModeFlag := v != 0 }),
    ("field_pic_flag", fun v p => { p with fieldPicFlag := v != 0 }),
    ("bottom_field_flag", fun v p => { p with bottomFieldFlag := v != 0 }),
    ("is_reference", fun v p => { p with isReference := v != 0 }),
    ("idr_pic_flag", fun v p => { p with idrPicFlag := v != 0 }),
    ("frame_num", fun v p => { p with frameNum := UInt16.ofInt v }),
    ("top_poc", fun v p => { p with topPoc := Int32.ofInt v }),
    ("bottom_poc", fun v p => { p with bottomPoc := Int32.ofInt v })]

end Params

end VideoAccel.Avc
