import SqlTree.Codec.Scalar
import SqlTree.Proofs.Codec.Reads

/-!
# Parts and their spellings

How the members of the objects of names, types, spans of time, windows and column declarations are
spelled does not change what is decoded.
-/

namespace SqlTree

open Decoder (AlternativesRead)

/-! ## Places, names and spans of time -/

theorem Position.reads : decoder.Reads shape :=
  ((Fields.Reads.field .plain nofun).map Position.mk |>.seq (.field .plain nofun) (by simp)).decoder

theorem Location.reads : decoder.Reads shape := Position.reads.option.map Location.mk

theorem Location.reads_field : field.Reads [("location", shape)] :=
  (Fields.Reads.option Position.reads).map Location.mk

theorem Name.reads : decoder.Reads shape :=
  ((Fields.Reads.field (.list .plain) nofun).checked of).decoder

theorem TimeSpan.reads : decoder.Reads shape :=
  ((Fields.Reads.field .plain nofun).map TimeSpan.mk |>.seq (.field .plain nofun) (by simp)).decoder

/-! ## Types -/

theorem StructField.readsWith {type : Decoder SqlType} (h : type.Reads SqlType.shape) :
    (decoderWith type).Reads shape :=
  ((Fields.Reads.field .plain nofun).map StructField.mk |>.seq (.field h nofun) (by simp)).decoder

namespace SqlType

theorem alternativesRead {type : Decoder SqlType} (h : type.Reads shape) :
    AlternativesRead (alternatives type) shapes := by
  have decimal : (SqlType.decimal <$> Fields.field "precision" Decoder.uint32 <*>
      Fields.field "scale" Decoder.uint32).Reads [("precision", .plain), ("scale", .plain)] :=
    (Fields.Reads.field .plain nofun).map SqlType.decimal |>.seq (.field .plain nofun) (by simp)
  exact .cons ⟨rfl, rfl⟩ <| .cons ⟨rfl, rfl⟩ <| .cons ⟨rfl, rfl⟩ <| .cons ⟨rfl, rfl⟩ <|
    .cons ⟨rfl, rfl⟩ <| .cons ⟨rfl, decimal.decoder⟩ <| .cons ⟨rfl, h.map array⟩ <|
    .cons ⟨rfl, h.map map⟩ <| .cons ⟨rfl, (StructField.readsWith h).list.map struct⟩ .nil

theorem readsTo (k : Nat) : (decoderTo k).Reads shape := by
  induction k with
  | zero => exact .fail
  | succ k ih => exact ((Decoder.Reads.tagged (alternativesRead ih)).checked check).named

theorem reads : decoder.Reads shape := readsTo _

end SqlType

theorem StructField.reads : decoder.Reads shape := readsWith SqlType.reads

/-! ## Windows and columns -/

theorem TableElement.reads : decoder.Reads shape :=
  ((Location.reads_field.map TableElement.mk |>.seq (.field .plain nofun) (by simp)
    |>.seq (.field .plain nofun) (by simp) |>.seq (.field SqlType.reads nofun) (by simp)).checked
    check).decoder

theorem WindowKind.reads : decoder.Reads shape := by
  have span (name : String) : (Fields.field name TimeSpan.decoder).Reads [(name, TimeSpan.shape)] :=
    .field TimeSpan.reads nofun
  exact .tagged <| .cons ⟨rfl, ((span "size").map tumbling).decoder⟩ <|
    .cons ⟨rfl, (((span "size").map hopping).seq (span "advance_by") (by simp)).decoder⟩ <|
    .cons ⟨rfl, ((span "gap").map session).decoder⟩ .nil

theorem KsqlWindow.reads : decoder.Reads shape :=
  (Location.reads_field.map KsqlWindow.mk |>.seq (.field WindowKind.reads nofun) (by simp)).decoder

theorem Window.reads : decoder.Reads shape :=
  (Location.reads_field.map Window.mk |>.seq (.option .plain) (by simp)
    |>.seq (.field KsqlWindow.reads nofun) (by simp)).decoder

theorem Within.reads : decoder.Reads shape :=
  (Location.reads_field.map Within.mk |>.seq (.field TimeSpan.reads nofun) (by simp)
    |>.seq (.field TimeSpan.reads nofun) (by simp)).decoder

end SqlTree
