import VideoAccel.Picture.Hevc

namespace VideoAccel.Hevc

/-- The scalar elements of a reference, as with the parameters. -/
def RefPicture.elements : List (String × (Int → RefPicture → RefPicture)) :=
  [("poc", fun v r => { r with poc := Int32.ofInt v }),
    ("long_term", fun v r => { r with longTerm := v != 0 })]

/-- Each element with the parameters that have it set to a value; a flag is set by any value but
zero. -/
def Params.elements : List (String × (Int → Params → Params)) :=
  [("chroma_format_idc", fun v p => { p with chromaFormatIdc := UInt8.ofInt v }),
    ("pic_width_in_luma_samples", fun v p => { p with picWidthInLumaSamples := UInt16.ofInt v }),
    ("pic_height_in_luma_samples", fun v p => { p with picHeightInLumaSamples := UInt16.ofInt v }),
    ("bit_depth_luma_minus8", fun v p => { p with bitDepthLumaMinus8 := UInt8.ofInt v }),
    ("bit_depth_chroma_minus8", fun v p => { p with bitDepthChromaMinus8 := UInt8.ofInt v }),
    ("log2_max_pic_order_cnt_lsb_minus4",
      fun v p => { p with log2MaxPicOrderCntLsbMinus4 := UInt8.ofInt v }),
    ("log2_min_luma_coding_block_size_minus3",
      fun v p => { p with log2MinLumaCodingBlockSizeMinus3 := UInt8.ofInt v }),
    ("log2_diff_max_min_luma_coding_block_size",
      fun v p => { p with log2DiffMaxMinLumaCodingBlockSize := UInt8.ofInt v }),
    ("log2_min_transform_block_size_minus2",
      fun v p => { p with log2MinTransformBlockSizeMinus2 := UInt8.ofInt v }),
    ("log2_diff_max_min_transform_block_size",
      fun v p => { p with log2DiffMaxMinTransformBlockSize := UInt8.ofInt v }),
    ("max_transform_hierarchy_depth_inter",
      fun v p => { p with maxTransformHierarchyDepthInter := UInt8.ofInt v }),
    ("max_transform_hierarchy_depth_intra",
      fun v p => { p with maxTransformHierarchyDepthIntra := UInt8.ofInt v }),
    ("scaling_list_enabled_flag", fun v p => { p with scalingListEnabledFlag := v != 0 }),
    ("amp_enabled_flag", fun v p => { p with ampEnabledFlag := v != 0 }),
    ("sample_adaptive_offset_enabled_flag",
      fun v p => { p with sampleAdaptiveOffsetEnabledFlag := v != 0 }),
    ("pcm_enabled_flag", fun v p => { p with pcmEnabledFlag := v != 0 }),
    ("pcm_sample_bit_depth_luma_minus1",
      fun v p => { p with pcmSampleBitDepthLumaMinus1 := UInt8.ofInt v }),
    ("pcm_sample_bit_depth_chroma_minus1",
      fun v p => { p with pcmSampleBitDepthChromaMinus1 := UInt8.ofInt v }),
    ("log2_min_pcm_luma_coding_block_size_minus3",
      fun v p => { p with log2MinPcmLumaCodingBlockSizeMinus3 := UInt8.ofInt v }),
    ("log2_diff_max_min_pcm_luma_coding_block_size",
      fun v p => { p with log2DiffMaxMinPcmLumaCodingBlockSize := UInt8.ofInt v }),
    ("pcm_loop_filter_disabled_flag", fun v p => { p with pcmLoopFilterDisabledFlag := v != 0 }),
    ("num_short_term_ref_pic_sets", fun v p => { p with numShortTermRefPicSets := UInt8.ofInt v }),
    ("long_term_ref_pics_present_flag",
      fun v p => { p with longTermRefPicsPresentFlag := v != 0 }),
    ("num_long_term_ref_pics_sps", fun v p => { p with numLongTermRefPicsSps := UInt8.ofInt v }),
    ("sps_temporal_mvp_enabled_flag", fun v p => { p with spsTemporalMvpEnabledFlag := v != 0 }),
    ("strong_intra_smoothing_enabled_flag",
      fun v p => { p with strongIntraSmoothingEnabledFlag := v != 0 }),
    ("dependent_slice_segments_enabled_flag",
      fun v p => { p with dependentSliceSegmentsEnabledFlag := v != 0 }),
    ("output_flag_present_flag", fun v p => { p with outputFlagPresentFlag := v != 0 }),
    ("num_extra_slice_header_bits",
      fun v p => { p with numExtraSliceHeaderBits := UInt8.ofInt v }),
    ("sign_data_hiding_enabled_flag", fun v p => { p with signDataHidingEnabledFlag := v != 0 }),
    ("cabac_init_present_flag", fun v p => { p with cabacInitPresentFlag := v != 0 }),
    ("num_ref_idx_l0_default_active_minus1",
      fun v p => { p with numRefIdxL0DefaultActiveMinus1 := UInt8.ofInt v }),
    ("num_ref_idx_l1_default_active_minus1",
      fun v p => { p with numRefIdxL1DefaultActiveMinus1 := UInt8.ofInt v }),
    ("init_qp_minus26", fun v p => { p with initQpMinus26 := Int8.ofInt v }),
    ("constrained_intra_pred_flag", fun v p => { p with constrainedIntraPredFlag := v != 0 }),
    ("transform_skip_enabled_flag", fun v p => { p with transformSkipEnabledFlag := v != 0 }),
    ("cu_qp_delta_enabled_flag", fun v p => { p with cuQpDeltaEnabledFlag := v != 0 }),
    ("diff_cu_qp_delta_depth", fun v p => { p with diffCuQpDeltaDepth := UInt8.ofInt v }),
    ("pps_cb_qp_offset", fun v p => { p with ppsCbQpOffset := Int8.ofInt v }),
    ("pps_cr_qp_offset", fun v p => { p with ppsCrQpOffset := Int8.ofInt v }),
    ("pps_slice_chroma_qp_offsets_present_flag",
      fun v p => { p with ppsSliceChromaQpOffsetsPresentFlag := v != 0 }),
    ("weighted_pred_flag", fun v p => { p with weightedPredFlag := v != 0 }),
    ("weighted_bipred_flag", fun v p => { p with weightedBipredFlag := v != 0 }),
    ("transquant_bypass_enabled_flag",
      fun v p => { p with transquantBypassEnabledFlag := v != 0 }),
    ("tiles_enabled_flag", fun v p => { p with tilesEnabledFlag := v != 0 }),
    ("entropy_coding_sync_enabled_flag",
      fun v p => { p with entropyCodingSyncEnabledFlag := v != 0 }),
    ("pps_loop_filter_across_slices_enabled_flag",
      fun v p => { p with ppsLoopFilterAcrossSlicesEnabledFlag := v != 0 }),
    ("loop_filter_across_tiles_enabled_flag",
      fun v p => { p with loopFilterAcrossTilesEnabledFlag := v != 0 }),
    ("deblocking_filter_override_enabled_flag",
      fun v p => { p with deblockingFilterOverrideEnabledFlag := v != 0 }),
    ("pps_deblocking_filter_disabled_flag",
      fun v p => { p with ppsDeblockingFilterDisabledFlag := v != 0 }),
    ("pps_beta_offset_div2", fun v p => { p with ppsBetaOffsetDiv2 := Int8.ofInt v }),
    ("pps_tc_offset_div2", fun v p => { p with ppsTcOffsetDiv2 := Int8.ofInt v }),
    ("lists_modification_present_flag",
      fun v p => { p with listsModificationPresentFlag := v != 0 }),
    ("log2_parallel_merge_level_minus2",
      fun v p => { p with log2ParallelMergeLevelMinus2 := UInt8.ofInt v }),
    ("slice_segment_header_extension_present_flag",
      fun v p => { p with sliceSegmentHeaderExtensionPresentFlag := v != 0 }),
    ("num_tile_columns_minus1", fun v p => { p with numTileColumnsMinus1 := UInt8.ofInt v }),
    ("num_tile_rows_minus1", fun v p => { p with numTileRowsMinus1 := UInt8.ofInt v }),
    ("uniform_spacing_flag", fun v p => { p with uniformSpacingFlag := v != 0 }),
    ("irap_pic", fun v p => { p with irapPic := v != 0 }),
    ("idr_pic", fun v p => { p with idrPic := v != 0 }),
    ("current_poc", fun v p => { p with currentPoc := Int32.ofInt v })]

end VideoAccel.Hevc
