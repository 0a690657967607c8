import GameServer.GameMapIO

namespace GameServer
open Foundation

-- Where testPrintMap looks for the tile of a row and a column.
def MapData.printIndex (data : MapData) (x y : UInt32) : UInt32 := y * data.width + x

-- A tile for every row and column, and each at a place of its own.
structure MapData.FullGrid (data : MapData) : Prop where
  count : data.tiles.length = data.width.toNat * data.height.toNat
  inside : ∀ x y, x < data.width → y < data.height → (data.printIndex x y).toNat < data.tiles.length
  apart : ∀ x y column row, x < data.width → y < data.height → column < data.width → row < data.height →
    data.printIndex x y = data.printIndex column row → x = column ∧ y = row

namespace MapData
variable {data : MapData} {x y : UInt32}

theorem place_lt (left : x < data.width) (above : y < data.height) :
    y.toNat * data.width.toNat + x.toNat < data.width.toNat * data.height.toNat := by
  have column := UInt32.lt_iff_toNat_lt.mp left
  have row : (y.toNat + 1) * data.width.toNat ≤ data.height.toNat * data.width.toNat :=
    Nat.mul_le_mul_right _ (UInt32.lt_iff_toNat_lt.mp above)
  rw [Nat.succ_mul,Nat.mul_comm data.height.toNat] at row
  omega

theorem printIndex_toNat (x y : UInt32) :
    (data.printIndex x y).toNat = (y.toNat * data.width.toNat + x.toNat) % 2 ^ 32 := by
  rw [printIndex,UInt32.toNat_add,UInt32.toNat_mul,Nat.mod_add_mod]

theorem printIndex_small (small : data.width.toNat * data.height.toNat ≤ 2 ^ 32) (left : x < data.width) (above : y < data.height) :
    (data.printIndex x y).toNat = y.toNat * data.width.toNat + x.toNat := by
  have place := place_lt left above
  rw [printIndex_toNat]
  exact Nat.mod_eq_of_lt (by omega)

theorem small_apart (small : data.width.toNat * data.height.toNat ≤ 2 ^ 32) {column row : UInt32} (left : x < data.width)
    (above : y < data.height) (left_ : column < data.width) (above_ : row < data.height)
    (same : data.printIndex x y = data.printIndex column row) : x = column ∧ y = row := by
  have places := congrArg UInt32.toNat same
  rw [printIndex_small small left above,printIndex_small small left_ above_] at places
  have one := UInt32.lt_iff_toNat_lt.mp left
  have two := UInt32.lt_iff_toNat_lt.mp left_
  have columns := congrArg (· % data.width.toNat) places
  simp only [Nat.mul_add_mod_self_right,Nat.mod_eq_of_lt one,Nat.mod_eq_of_lt two] at columns
  rw [columns] at places
  have rows := Nat.eq_of_mul_eq_mul_right (Nat.lt_of_le_of_lt (Nat.zero_le _) one) (Nat.add_right_cancel places)
  exact ⟨UInt32.toNat_inj.mp columns,UInt32.toNat_inj.mp rows⟩

-- A grid with more than 2 ^ 32 tiles has one that gets the index of the first.
theorem large_collides (large : 2 ^ 32 < data.width.toNat * data.height.toNat) : ∃ x y, x < data.width ∧ y < data.height ∧
    data.printIndex x y = data.printIndex 0 0 ∧ y ≠ 0 := by
  have wide := data.width.toNat_lt
  have high := data.height.toNat_lt
  have some_ : 0 < data.width.toNat := by
    by_contra none_
    rw [Nat.eq_zero_of_not_pos none_] at large
    omega
  have column : 2 ^ 32 % data.width.toNat < data.width.toNat := Nat.mod_lt _ some_
  have row : 2 ^ 32 / data.width.toNat < data.height.toNat := Nat.div_lt_of_lt_mul large
  have positive : 0 < 2 ^ 32 / data.width.toNat := Nat.div_pos (Nat.le_of_lt wide) some_
  have x : (UInt32.ofNat (2 ^ 32 % data.width.toNat)).toNat = 2 ^ 32 % data.width.toNat :=
    UInt32.toNat_ofNat_of_lt' (Nat.lt_trans column wide)
  have y : (UInt32.ofNat (2 ^ 32 / data.width.toNat)).toNat = 2 ^ 32 / data.width.toNat :=
    UInt32.toNat_ofNat_of_lt' (Nat.lt_trans row high)
  refine ⟨UInt32.ofNat (2 ^ 32 % data.width.toNat),UInt32.ofNat (2 ^ 32 / data.width.toNat),?_,?_,?_,?_⟩
  · rw [UInt32.lt_iff_toNat_lt,x]
    exact column
  · rw [UInt32.lt_iff_toNat_lt,y]
    exact row
  · apply UInt32.toNat_inj.mp
    have whole := Nat.div_add_mod' (2 ^ 32) data.width.toNat
    rw [printIndex_toNat,printIndex_toNat,x,y,whole]
    simp
  · intro zero
    rw [zero,UInt32.toNat_zero] at y
    omega

theorem fullGrid_iff : data.FullGrid ↔ data.tiles.length = data.width.toNat * data.height.toNat ∧
    data.width.toNat * data.height.toNat ≤ 2 ^ 32 := by
  refine ⟨?_,?_⟩
  · intro full
    refine ⟨full.count,?_⟩
    by_contra large
    obtain ⟨x,y,left,above,same,other⟩ := large_collides (Nat.lt_of_not_le large)
    have first : 0 < data.width := Nat.lt_of_le_of_lt (Nat.zero_le _) left
    have top : 0 < data.height := Nat.lt_of_le_of_lt (Nat.zero_le _) above
    exact other (full.apart x y 0 0 left above first top same).2
  · rintro ⟨count,small⟩
    refine ⟨count,?_,?_⟩
    · intro x y left above
      rw [count,printIndex_small small left above]
      exact place_lt left above
    · intro x y column row left above left_ above_
      exact small_apart small left above left_ above_

end MapData

namespace GameMap

def fileNumber (library : DocLibrary) (root : JsonDoc) (key : String) : Option UInt32 :=
  (root.at_ (stdString key)).bind (JsonDoc.getUnsigned library)

-- The file lists as many tiles as its width and height call for, and these are not too many to number.
def ListsGrid (library : DocLibrary) (root : JsonDoc) : Prop := ∃ width height,
  fileNumber library root "width" = some width ∧ fileNumber library root "height" = some height ∧
    (fileIds library root).length = width.toNat * height.toNat ∧ width.toNat * height.toNat ≤ 2 ^ 32

theorem parseMapData_size {library : DocLibrary} {root : JsonDoc} {data : MapData} (parsed : parseMapData library root = some data) :
    fileNumber library root "width" = some data.width ∧ fileNumber library root "height" = some data.height ∧
      (fileIds library root).length = data.tiles.length := by
  have ids := congrArg List.length (parseMapData_ids library parsed)
  rw [List.length_map] at ids
  simp only [parseMapData,Option.bind_eq_bind,Option.bind_eq_some_iff,Option.pure_def,Option.some.injEq] at parsed
  obtain ⟨widthNode,width_,width,gotWidth,heightNode,height_,height,gotHeight,tilesNode,_,tiles,_,rfl⟩ := parsed
  refine ⟨?_,?_,ids.symm⟩
  · rw [fileNumber,width_]
    exact gotWidth
  · rw [fileNumber,height_]
    exact gotHeight

-- ParseMapData compares nothing, so the map is a full grid just where the file lists one.
theorem full_grid_exact (library : DocLibrary) {root : JsonDoc} {data : MapData} (parsed : parseMapData library root = some data) :
    data.FullGrid ↔ ListsGrid library root := by
  obtain ⟨width,height,count⟩ := parseMapData_size parsed
  rw [MapData.fullGrid_iff]
  refine ⟨?_,?_⟩
  · rintro ⟨full,small⟩
    exact ⟨data.width,data.height,width,height,count.trans full,small⟩
  · rintro ⟨w,h,gotWidth,gotHeight,full,small⟩
    cases width.symm.trans gotWidth
    cases height.symm.trans gotHeight
    exact ⟨count.symm.trans full,small⟩

def gridFile (types : List String) : JsonDoc := .object [
  (stdString "height",.unsigned 2),
  (stdString "tiles",.array (types.map fun type => .object [
    (stdString "tile_id",.unsigned 1),
    (stdString "type",.string (stdString type))])),
  (stdString "width",.unsigned 2)]

def bareLibrary : DocLibrary := ⟨fun _ => none,fun _ => none,fun _ => 0,fun _ => 0⟩

theorem four_tiles_full : ∃ data, parseMapData bareLibrary (gridFile ["Mountain","Ground","Water","Base"]) = some data ∧
    data.FullGrid := by
  have accepted : (parseMapData bareLibrary (gridFile ["Mountain","Ground","Water","Base"])).isSome = true := by decide +kernel
  obtain ⟨data,parsed⟩ := Option.isSome_iff_exists.mp accepted
  refine ⟨data,parsed,(full_grid_exact bareLibrary parsed).mpr ⟨2,2,?_,?_,?_,?_⟩⟩ <;> decide +kernel

-- The tile of the second column of the second row is missing.
theorem three_tiles_parsed : ∃ data, parseMapData bareLibrary (gridFile ["Mountain","Ground","Water"]) = some data ∧
    data.tiles.length = 3 ∧ (data.printIndex 1 1).toNat = 3 ∧ ¬ data.FullGrid := by
  have accepted : (parseMapData bareLibrary (gridFile ["Mountain","Ground","Water"])).map
      (fun data => (data.tiles.length,data.width,data.height)) = some (3,2,2) := by decide +kernel
  obtain ⟨data,parsed,facts⟩ := Option.map_eq_some_iff.mp accepted
  simp only [Prod.mk.injEq] at facts
  obtain ⟨count,width,height⟩ := facts
  refine ⟨data,parsed,count,?_,?_⟩
  · rw [MapData.printIndex,width]
    rfl
  · intro full
    have wanted := full.count
    rw [count,width,height] at wanted
    revert wanted
    decide

end GameMap
end GameServer
