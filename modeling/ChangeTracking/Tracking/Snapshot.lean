import ChangeTracking.Binary.Encoding
import ChangeTracking.Binary.Sha256
import ChangeTracking.Settings
import ChangeTracking.Tracking.Descriptor

/-!
# Snapshots

The binary form of settings and of tracking descriptors, and their fingerprints, by
which a later run finds what has changed.
-/

namespace ChangeTracking

/-- The hash of a binary form in hexadecimal. -/
def fingerprint (bytes : List UInt8) : String := Text.hex (Binary.Sha256.digest bytes)

def Settings.encode (s : Settings) : List UInt8 :=
  Binary.bool s.ignoreCreates ++ Binary.bool s.ignoreUpdates ++ Binary.bool s.ignoreDeletes
    ++ Binary.bool s.preserveDeletes ++ Binary.bool s.quotedIdentifiers
    ++ Binary.bool s.strictRootBinding ++ Binary.text s.changesTable
    ++ Binary.text s.headerTable

namespace Tracking

open Schema (ColumnPair)

/-- The position of a relation in declared order. -/
def Relation.index : Relation → Nat
  | none => 0
  | reference => 1
  | ownedSubrecord => 2

def encodePair (pair : ColumnPair) : List UInt8 :=
  Binary.text pair.target ++ Binary.text pair.source

def Attribute.encode (a : Attribute) : List UInt8 :=
  Binary.text a.name ++ Binary.text a.type ++ Binary.nat32 a.valueClass.index
    ++ Binary.nat32 a.relation.index ++ Binary.option Binary.text a.target
    ++ Binary.texts a.foreignKeys ++ Binary.list encodePair a.onTerms
    ++ Binary.texts a.labelPaths

def IdentityField.encode (f : IdentityField) : List UInt8 :=
  Binary.text f.path ++ Binary.bool f.onRow

def RootLink.encode : RootLink → List UInt8
  | foreignKeys joins => Binary.nat32 0 ++ Binary.list encodePair joins
  | backReference field joins =>
      Binary.nat32 1 ++ Binary.text field ++ Binary.list encodePair joins

def RootBinding.encode (b : RootBinding) : List UInt8 :=
  Binary.text b.root ++ b.link.encode ++ Binary.list IdentityField.encode b.identity

def Collection.encode (c : Collection) : List UInt8 :=
  Binary.text c.element ++ Binary.text c.target ++ Binary.texts c.targetKeys
    ++ Binary.list IdentityField.encode c.identity ++ Binary.option RootLink.encode c.link

def Descriptor.encode (d : Descriptor) : List UInt8 :=
  Binary.text d.entity ++ Binary.option Binary.text d.service ++ Binary.texts d.primaryKey
    ++ Binary.list Attribute.encode d.attributes
    ++ Binary.list IdentityField.encode d.identity
    ++ Binary.list Collection.encode d.collections
    ++ Binary.option RootBinding.encode d.binding

end Tracking

end ChangeTracking
