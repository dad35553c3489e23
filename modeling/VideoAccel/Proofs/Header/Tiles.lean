import Mathlib.Algebra.Order.BigOperators.Group.Finset
import Mathlib.Algebra.Order.Floor.Semifield
import Mathlib.Data.List.GetD
import VideoAccel.Proofs.Header.Parameters
import VideoAccel.Proofs.Rounding

namespace VideoAccel.Hevc

/-- Sizes between borders at the rounded-down fractions of a total. -/
structure EvenSizes (total count : Nat) (sizes : List Nat) : Prop where
  length : sizes.length = count
  entry : ∀ i (h : i < sizes.length),
    sizes[i] = ⌊(((i + 1) * total : Nat) : ℚ) / count⌋₊ - ⌊((i * total : Nat) : ℚ) / count⌋₊
  balanced : ∀ size ∈ sizes, size = ⌊(total : ℚ) / count⌋₊ ∨ size = ⌈(total : ℚ) / count⌉₊
  sum : sizes.sum = total

def givenSizes (count : Nat) (minus1 : List UInt16) : List Nat :=
  (minus1.take (count - 1)).map fun s => s.toNat + 1

/-- Sizes as they are given, and a last one for what remains of a total. -/
structure GivenSizes (total count : Nat) (minus1 : List UInt16) (sizes : List Nat) : Prop where
  length : sizes.length = count
  given : sizes.take (count - 1) = givenSizes count minus1
  positive : ∀ size ∈ sizes, 1 ≤ size
  sum : sizes.sum = total

/-- What the sizes of the tiles along one side of the picture have to be. Sizes that are given have
to leave something for the last tile. -/
structure Divides (total count : Nat) (uniform : Bool) (minus1 : List UInt16)
    (sizes : List Nat) : Prop where
  even : uniform = true → EvenSizes total count sizes
  given : uniform = false → count ≤ minus1.length → (givenSizes count minus1).sum < total →
    GivenSizes total count minus1 sizes

section

variable {total count : Nat}

theorem sum_borders {border : Nat → Nat} (hmono : Monotone border) (count : Nat) :
    ((List.range count).map fun i => border (i + 1) - border i).sum = border count - border 0 :=
  Finset.sum_range_tsub hmono count

theorem border_sub_border (hcount : 0 < count) (i : Nat) :
    (i + 1) * total / count - i * total / count = total / count ∨
      (i + 1) * total / count - i * total / count = ceilDiv total count := by
  rw [Nat.succ_mul, Nat.add_div hcount, Nat.add_assoc, Nat.add_sub_cancel_left]
  by_cases hcarry : count ≤ i * total % count + total % count
  · -- the remainders add up to a whole only if the total has one
    have hlt := Nat.mod_lt (i * total) hcount
    rw [if_pos hcarry, ceilDiv_of_mod_pos (by omega) hcount]
    exact .inr rfl
  · rw [if_neg hcarry]
    exact .inl rfl

theorem evenSizes_tileSizes (hcount : 0 < count) (minus1 : List UInt16) :
    EvenSizes total count (tileSizes total count true minus1) := by
  have hsizes : tileSizes total count true minus1 =
    (List.range count).map fun i => (i + 1) * total / count - i * total / count := rfl
  refine ⟨?_, ?_, ?_, ?_⟩
  · rw [hsizes, List.length_map, List.length_range]
  · intro i h
    simp only [hsizes, List.getElem_map, List.getElem_range, Nat.floor_div_eq_div]
  · intro size hmem
    obtain ⟨i, -, rfl⟩ := List.mem_map.1 (hsizes ▸ hmem)
    rw [Nat.floor_div_eq_div, ← ceilDiv_eq_natCeil total hcount]
    exact border_sub_border hcount i
  · have hmono : Monotone fun i => i * total / count := fun _ _ h =>
      Nat.div_le_div_right (Nat.mul_le_mul_right total h)
    rw [hsizes, sum_borders hmono, Nat.mul_div_cancel_left total hcount, Nat.zero_mul, Nat.zero_div,
      Nat.sub_zero]

theorem givenSizes_tileSizes (hcount : 0 < count) {minus1 : List UInt16}
    (hlength : count ≤ minus1.length) (hsum : (givenSizes count minus1).sum < total) :
    GivenSizes total count minus1 (tileSizes total count false minus1) := by
  have hsizes : tileSizes total count false minus1 =
    givenSizes count minus1 ++ [total - (givenSizes count minus1).sum] := rfl
  have hgiven : (givenSizes count minus1).length = count - 1 := by
    rw [givenSizes, List.length_map, List.length_take]
    omega
  refine ⟨?_, ?_, ?_, ?_⟩
  · rw [hsizes, List.length_append, hgiven, List.length_singleton, Nat.sub_add_cancel hcount]
  · rw [hsizes, ← hgiven, List.take_left]
  · intro size hmem
    rw [hsizes, List.mem_append, List.mem_singleton] at hmem
    obtain hmem | rfl := hmem
    · obtain ⟨s, -, rfl⟩ := List.mem_map.1 hmem
      exact Nat.le_add_left 1 _
    · omega
  · rw [hsizes, List.sum_append, List.sum_singleton]
    omega

theorem divides_tileSizes (hcount : 0 < count) (uniform : Bool) (minus1 : List UInt16) :
    Divides total count uniform minus1 (tileSizes total count uniform minus1) := by
  constructor
  · rintro rfl
    exact evenSizes_tileSizes hcount minus1
  · rintro rfl hlength hsum
    exact givenSizes_tileSizes hcount hlength hsum

end

def readSizes (n count : Nat) : List Int :=
  FieldShape.readAll (List.replicate count (.unsigned 12)) n

/-- A writer goes on with the places for the sizes of columns and rows. Places for which there is no
tile are zero. -/
structure AnnouncesTiles (w w' : BitWriter) (columns rows : List Nat) : Prop where
  position : w'.position = w.position + 12 * (maxTileColumns + maxTileRows)
  before : w'.value % 2 ^ w.position = w.value
  columns : readSizes (w'.value >>> w.position) maxTileColumns =
    (columns.rightpad maxTileColumns 0).map Int.ofNat
  rows : readSizes (w'.value >>> (w.position + 12 * maxTileColumns)) maxTileRows =
    (rows.rightpad maxTileRows 0).map Int.ofNat

section

variable {sizes : List Nat} {count : Nat}

theorem shapes_sizeFields (sizes : List Nat) (count : Nat) :
    (sizeFields sizes count).map BitField.shape = List.replicate count (.unsigned 12) := by
  rw [sizeFields, List.map_map]
  exact (List.map_const' ..).trans (by rw [List.length_range])

theorem isChecked_sizeFields (sizes : List Nat) (count : Nat) :
    ∀ f ∈ sizeFields sizes count, f.shape.isChecked = true := by
  intro f hf
  obtain ⟨i, -, rfl⟩ := List.mem_map.1 hf
  rfl

theorem totalWidth_sizeFields (sizes : List Nat) (count : Nat) :
    BitField.totalWidth (sizeFields sizes count) = 12 * count := by
  rw [← BitField.totalWidth_map_shape, shapes_sizeFields, FieldShape.totalWidth, List.map_replicate,
    List.sum_replicate_nat, Nat.mul_comm]
  rfl

theorem values_sizeFields (h : sizes.length ≤ count) :
    (sizeFields sizes count).map BitField.value = (sizes.rightpad count 0).map Int.ofNat := by
  have hpadded : (List.range count).map (fun i => sizes.getD i 0) = sizes.rightpad count 0 := by
    rw [List.rightpad]
    refine List.ext_getElem ?_ fun i hi _ => ?_
    · rw [List.length_map, List.length_range, List.length_append, List.length_replicate]
      omega
    · rw [List.getElem_map, List.getElem_range, List.getElem_append]
      split
      · rename_i hlt
        exact List.getD_eq_getElem sizes 0 hlt
      · rename_i hge
        rw [List.getElem_replicate]
        exact List.getD_eq_default sizes 0 (Nat.le_of_not_lt hge)
  rw [← hpadded, sizeFields, List.map_map, List.map_map]
  rfl

theorem readSizes_packed (h : sizes.length ≤ count) (hfits : ∀ f ∈ sizeFields sizes count, f.Fits)
    (n : Nat) :
    readSizes (BitField.packed (sizeFields sizes count) + 2 ^ (12 * count) * n) count =
      (sizes.rightpad count 0).map Int.ofNat := by
  rw [readSizes, ← shapes_sizeFields sizes count, ← totalWidth_sizeFields sizes count,
    BitField.readAll_packed hfits (isChecked_sizeFields sizes count), values_sizeFields h]

end

theorem announcesTiles_of_putAll {w w' : BitWriter} (hw : w.IsClear) {columns rows : List Nat}
    (hcolumns : columns.length ≤ maxTileColumns) (hrows : rows.length ≤ maxTileRows)
    (hput : w.putAll (sizeFields columns maxTileColumns ++ sizeFields rows maxTileRows) = .ok w') :
    AnnouncesTiles w w' columns rows := by
  have hchecked : ∀ f ∈ sizeFields columns maxTileColumns ++ sizeFields rows maxTileRows,
      f.shape.isChecked = true :=
    List.forall_mem_append.2 ⟨isChecked_sizeFields _ _, isChecked_sizeFields _ _⟩
  obtain ⟨hfits, hextend⟩ := BitWriter.extend_of_putAll hchecked hput
  obtain ⟨hfirst, hsecond⟩ := List.forall_mem_append.1 hfits
  obtain ⟨hvalue, -⟩ := hw.value_of_putAll hchecked hput
  refine ⟨?_, hw.mod_of_value hvalue, ?_, ?_⟩
  · rw [hextend, BitWriter.position_extend, BitField.totalWidth_append, totalWidth_sizeFields, totalWidth_sizeFields,
      Nat.mul_add]
  · rw [hw.shiftRight_of_value hvalue, BitField.packed_append, totalWidth_sizeFields]
    exact readSizes_packed hcolumns hfirst _
  · have hread := readSizes_packed hrows hsecond 0
    rw [Nat.shiftRight_add, hw.shiftRight_of_value hvalue, ← totalWidth_sizeFields columns maxTileColumns,
      PartLayout.packed_append_shiftRight hfirst]
    rwa [Nat.mul_zero, Nat.add_zero] at hread

variable {p : Params} {bind : Binding} {width height : Nat}

theorem lt_of_sizeInCtbs (hsize : p.sizeInCtbs = .ok (width, height)) :
    p.ctbLog2Size < 32 ∧ p.resolution.blocks (Nat.pow 2 p.ctbLog2Size) = (width, height) := by
  rw [Params.sizeInCtbs] at hsize
  split at hsize
  · rename_i hlt
    exact ⟨hlt, Except.ok.inj hsize⟩
  · cases hsize

theorem grid_eq (hsize : p.sizeInCtbs = .ok (width, height)) :
    grid p = if p.tilesEnabledFlag then (p.tileColumns width, p.tileRows height)
      else ([width], [height]) := by
  rw [grid, (lt_of_sizeInCtbs hsize).2]

theorem announcesTiles_of_packParts (hsize : p.sizeInCtbs = .ok (width, height)) {w w' : BitWriter}
    (hw : w.IsClear) (hpack : packParts p bind w [.tiles] = .ok w') :
    AnnouncesTiles w w' (grid p).1 (grid p).2 := by
  have hside := (lt_of_sizeInCtbs hsize).1
  by_cases htiles : p.TilesAdmitted
  · obtain ⟨hcolumns, hrows⟩ := (length_grid p).2 htiles
    simp only [packParts, HeaderPart.fields, tileFields_of_admitted hside htiles] at hpack
    cases hput : w.putAll (gridFields p) with
    | error e =>
      rw [hput] at hpack
      cases hpack
    | ok w₁ =>
      rw [hput] at hpack
      obtain rfl := Except.ok.inj hpack
      exact announcesTiles_of_putAll hw hcolumns hrows hput
  · simp only [packParts, HeaderPart.fields, tileFields_of_not_admitted hside htiles] at hpack
    cases hpack

/-- The tiles of a picture divide its grid of coding tree blocks. A header that announces them has
just these sizes, or those of the whole picture where tiles are disabled; more tiles than it has
places for are refused. -/
theorem tiles_divide_grid (bind : Binding) (hsize : p.sizeInCtbs = .ok (width, height)) :
    ∃ columns rows, p.tileGrid = .ok (columns, rows) ∧
      Divides width (p.numTileColumnsMinus1.toNat + 1) p.uniformSpacingFlag
        p.columnWidthMinus1.toList columns ∧
      Divides height (p.numTileRowsMinus1.toNat + 1) p.uniformSpacingFlag
        p.rowHeightMinus1.toList rows ∧
      (∀ w w', w.IsClear → packParts p bind w [.tiles] = .ok w' →
        if p.tilesEnabledFlag then AnnouncesTiles w w' columns rows
        else AnnouncesTiles w w' [width] [height]) ∧
      (p.tilesEnabledFlag = true →
        maxTileColumns < p.numTileColumnsMinus1.toNat + 1 ∨
          maxTileRows < p.numTileRowsMinus1.toNat + 1 →
        ∀ w, packParts p bind w [.tiles] = .error (.tooManyTiles columns.length rows.length)) := by
  have hgrid := grid_eq hsize
  refine ⟨p.tileColumns width, p.tileRows height, by rw [Params.tileGrid, hsize],
    divides_tileSizes (Nat.succ_pos _) _ _, divides_tileSizes (Nat.succ_pos _) _ _, ?_, ?_⟩
  · intro w w' hw hpack
    have hannounced := announcesTiles_of_packParts hsize hw hpack
    rw [hgrid] at hannounced
    by_cases htiles : p.tilesEnabledFlag = true
    · rwa [if_pos htiles] at hannounced ⊢
    · rwa [if_neg htiles] at hannounced ⊢
  · intro htiles hmany w
    have hnot : ¬ p.TilesAdmitted := fun hadmitted => by
      have hle := hadmitted htiles
      omega
    have hrefused := tileFields_of_not_admitted (lt_of_sizeInCtbs hsize).1 hnot
    rw [hgrid, if_pos htiles] at hrefused
    simp only [packParts, HeaderPart.fields, hrefused]

def tiledParams : Params :=
  { picWidthInLumaSamples := 1920, picHeightInLumaSamples := 1088
    log2DiffMaxMinLumaCodingBlockSize := 3, tilesEnabledFlag := true, uniformSpacingFlag := true
    numTileColumnsMinus1 := 3, numTileRowsMinus1 := 1 }

def tiledBinding : Binding := { output := { handle := 1, resolution := ⟨1920, 1088⟩ } }

theorem tiles_divide_grid_uniform :
    tiledParams.sizeInCtbs = .ok (30, 17) ∧
      EvenSizes 30 4 [7, 8, 7, 8] ∧ EvenSizes 17 2 [8, 9] ∧
      ∃ w', packParts tiledParams tiledBinding (.ofCapacity headerBits) [.tiles] = .ok w' ∧
        AnnouncesTiles (.ofCapacity headerBits) w' [7, 8, 7, 8] [8, 9] := by
  have hsize : tiledParams.sizeInCtbs = .ok (30, 17) := by decide
  obtain ⟨columns, rows, hgrid, hcolumns, hrows, hannounced, -⟩ := tiles_divide_grid tiledBinding
    hsize
  have htiles : tiledParams.tileGrid = .ok ([7, 8, 7, 8], [8, 9]) := by decide
  obtain ⟨rfl, rfl⟩ := Prod.mk.inj (Except.ok.inj (hgrid.symm.trans htiles))
  refine ⟨hsize, hcolumns.even rfl, hrows.even rfl, ?_⟩
  have hpacked :
      (packParts tiledParams tiledBinding (.ofCapacity headerBits) [.tiles]).isOk = true := by
    decide +kernel
  cases hpack : packParts tiledParams tiledBinding (.ofCapacity headerBits) [.tiles] with
  | error e =>
    rw [hpack] at hpacked
    cases hpacked
  | ok w' => exact ⟨w', rfl, hannounced _ w' (BitWriter.isClear_ofCapacity headerBits) hpack⟩

example :
    (tileSizes 100 40 false (List.replicate maxTileColumns 0)).length = maxTileColumns + 1 := by
  decide

end VideoAccel.Hevc
