import DetachedSchema.Codec.Listing
import DetachedSchema.Codec.Snapshot
import DetachedSchema.Proofs.Codec.Lawful

/-!
# The codecs of documents

Every type of a document has a lawful codec: entries, listings, snapshots and counts.
-/

namespace DetachedSchema

open Codec (bounded_record lawful_map lawful_oneOf lawful_record solid_record)

/-! ### Paths and ids -/

instance : SchemaPath.codec.Lawful := lawful_record (by decide) fun _ => rfl
instance : SchemaPath.codec.Bounded := bounded_record
instance : TablePath.codec.Lawful := lawful_record (by decide) fun _ => rfl
instance : TablePath.codec.Bounded := bounded_record
instance : CatalogId.codec.Lawful := lawful_map fun _ => rfl
instance : SchemaId.codec.Lawful := lawful_record (by decide) fun _ => rfl
instance : TableId.codec.Lawful := lawful_record (by decide) fun _ => rfl
instance : KeyId.codec.Lawful := lawful_record (by decide) fun _ => rfl

/-! ### Data types and descriptors -/

instance : DataType.codec.Lawful := lawful_record (by decide) fun _ => rfl
instance : DataType.codec.Bounded := bounded_record

instance : TableKind.codec.Lawful :=
  lawful_oneOf (fun kind => by cases kind <;> decide) (by decide)
instance : TableKind.codec.Bounded := inferInstanceAs (Codec.oneOf _ _).Bounded

instance : SortOrder.codec.Lawful :=
  lawful_oneOf (fun order => by cases order <;> decide) (by decide)
instance : SortOrder.codec.Bounded := inferInstanceAs (Codec.oneOf _ _).Bounded

instance : TableOptions.codec.Lawful := lawful_record (by decide) fun _ => rfl
instance : TableOptions.codec.Bounded := bounded_record
instance : Check.codec.Lawful := lawful_record (by decide) fun _ => rfl
instance : Check.codec.Bounded := bounded_record

/-! ### Entries -/

instance : CatalogEntry.codec.Lawful := lawful_record (by decide) fun _ => rfl
instance : CatalogEntry.codec.Bounded := bounded_record
instance : SchemaEntry.codec.Lawful := lawful_record (by decide) fun _ => rfl
instance : SchemaEntry.codec.Bounded := bounded_record
instance : DomainEntry.codec.Lawful := lawful_record (by decide) fun _ => rfl
instance : DomainEntry.codec.Bounded := bounded_record
instance : TableEntry.codec.Lawful := lawful_record (by decide) fun _ => rfl
instance : TableEntry.codec.Bounded := bounded_record
instance : ColumnEntry.codec.Lawful := lawful_record (by decide) fun _ => rfl
instance : ColumnEntry.codec.Bounded := bounded_record
instance : SortedColumnEntry.codec.Lawful := lawful_record (by decide) fun _ => rfl
instance : SortedColumnEntry.codec.Bounded := bounded_record
instance : IndexEntry.codec.Lawful := lawful_record (by decide) fun _ => rfl
instance : IndexEntry.codec.Bounded := bounded_record
instance : KeyEntry.codec.Lawful := lawful_record (by decide) fun _ => rfl
instance : KeyEntry.codec.Bounded := bounded_record
instance : KeyEntry.codec.Solid := solid_record
instance : KeyReference.codec.Lawful := lawful_record (by decide) fun _ => rfl
instance : KeyReference.codec.Bounded := bounded_record
instance : ForeignKeyEntry.codec.Lawful := lawful_record (by decide) fun _ => rfl
instance : ForeignKeyEntry.codec.Bounded := bounded_record
instance : SequenceEntry.codec.Lawful := lawful_record (by decide) fun _ => rfl
instance : SequenceEntry.codec.Bounded := bounded_record
instance : UserTypeEntry.codec.Lawful := lawful_record (by decide) fun _ => rfl
instance : UserTypeEntry.codec.Bounded := bounded_record

/-! ### Listings -/

instance : TableListing.codec.Lawful := lawful_record (by decide) fun _ => rfl
instance : TableListing.codec.Bounded := bounded_record
instance : SchemaListing.codec.Lawful := lawful_record (by decide) fun _ => rfl
instance : SchemaListing.codec.Bounded := bounded_record
instance : CatalogListing.codec.Lawful := lawful_record (by decide) fun _ => rfl
instance : CatalogListing.codec.Bounded := bounded_record
instance : Listing.codec.Lawful := lawful_record (by decide) fun _ => rfl
instance : Listing.codec.Bounded := bounded_record

/-! ### Snapshots -/

instance : Domain.codec.Lawful := lawful_record (by decide) fun _ => rfl
instance : Sequence.codec.Lawful := lawful_record (by decide) fun _ => rfl
instance : Attribute.codec.Lawful := lawful_record (by decide) fun _ => rfl
instance : Attribute.codec.Bounded := bounded_record
instance : UserType.codec.Lawful := lawful_record (by decide) fun _ => rfl
instance : Column.codec.Lawful := lawful_record (by decide) fun _ => rfl
instance : IndexColumn.codec.Lawful := lawful_record (by decide) fun _ => rfl
instance : Index.codec.Lawful := lawful_record (by decide) fun _ => rfl
instance : UniqueKey.codec.Lawful := lawful_record (by decide) fun _ => rfl
instance : ForeignKey.codec.Lawful := lawful_record (by decide) fun _ => rfl
instance : Identity.codec.Lawful := lawful_record (by decide) fun _ => rfl
instance : Identity.codec.Solid := solid_record
instance : Table.codec.Lawful := lawful_record (by decide) fun _ => rfl
instance : Schema.codec.Lawful := lawful_record (by decide) fun _ => rfl
instance : Catalog.codec.Lawful := lawful_record (by decide) fun _ => rfl
instance : Snapshot.codec.Lawful := lawful_record (by decide) fun _ => rfl
instance : Stats.codec.Lawful := lawful_record (by decide) fun _ => rfl

end DetachedSchema
