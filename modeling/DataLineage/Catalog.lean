import DataLineage.Graph.Seed
import DataLineage.Taxonomy.Model

/-!
# The catalogue that comes with the library

A type model of the usual datasets and processes, and a sample of seed data: raw files land in a
staging table, a job curates them, a model aggregates the curated table, and a dashboard reads the
aggregate. Another job writes back into staging, which closes a cycle.
-/

namespace DataLineage.Catalog

/-- A type with at most one direct supertype. -/
def typeEntry (name : String) (superTypes : List String) : Scalar × Value :=
  (name, .record (if superTypes.isEmpty then []
    else [("super_types", .list (superTypes.map .text))]))

/-- **The type model**: datasets, processes, and types that are neither. -/
def typeModel : Value :=
  .record [
    ("version", .int 1),
    ("categories", .record [("dataset", .text "DataSet"), ("process", .text "Process")]),
    ("edge_labels", .record [
      ("process_inputs", .text "consumes-input"),
      ("process_outputs", .text "produces-output")]),
    ("entity_types", .record [
      typeEntry "Referenceable" [],
      typeEntry "Asset" ["Referenceable"],
      typeEntry "DataSet" ["Asset"],
      typeEntry "Process" ["Asset"],
      typeEntry "Table" ["DataSet"],
      typeEntry "View" ["Table"],
      typeEntry "MaterialisedView" ["View"],
      typeEntry "Column" ["DataSet"],
      typeEntry "File" ["DataSet"],
      typeEntry "KafkaTopic" ["DataSet"],
      typeEntry "Dashboard" ["DataSet"],
      typeEntry "EtlJob" ["Process"],
      typeEntry "SparkJob" ["EtlJob"],
      typeEntry "DbtModel" ["Process"],
      typeEntry "ColumnProcess" ["Process"],
      typeEntry "Glossary" ["Referenceable"],
      typeEntry "GlossaryTerm" ["Referenceable"],
      typeEntry "Connection" ["Asset"]])]

/-- An asset with its text properties. -/
def asset (properties : List (String × String)) : Value :=
  .record (properties.map fun p => (p.1, .text p.2))

/-- A relationship between two assets. -/
def relationship (label source target id : String) : Value :=
  asset [("type", label), ("from", source), ("to", target), ("id", id)]

/-- **The sample of seed data.** -/
def seed : Value :=
  .record [
    ("assets", .record [
      ("File", .list [
        asset [
          ("id", "file-001"), ("name", "transactions_2024.csv"),
          ("qualifiedName", "s3://landing/transactions_2024.csv")]]),
      ("Table", .list [
        asset [
          ("id", "tbl-001"), ("name", "stg_transactions"),
          ("qualifiedName", "warehouse.staging.stg_transactions"), ("owner", "data-eng")],
        asset [
          ("id", "tbl-002"), ("name", "curated_transactions"),
          ("qualifiedName", "warehouse.curated.transactions"), ("owner", "data-eng")],
        asset [
          ("id", "tbl-003"), ("name", "fct_daily_spend"),
          ("qualifiedName", "warehouse.marts.fct_daily_spend"), ("owner", "analytics")],
        asset [
          ("id", "tbl-004"), ("name", "old_spend_backup"),
          ("qualifiedName", "warehouse.archive.old_spend"), ("status", "DELETED")]]),
      ("Dashboard", .list [
        asset [
          ("id", "dash-001"), ("name", "Daily Spend"),
          ("qualifiedName", "bi.dashboards.daily_spend"), ("owner", "analytics")]]),
      ("EtlJob", .list [
        asset [
          ("id", "job-001"), ("name", "ingest_transactions"),
          ("qualifiedName", "airflow.ingest_transactions")],
        asset [
          ("id", "job-004"), ("name", "reverse_etl_spend"),
          ("qualifiedName", "airflow.reverse_etl_spend")]]),
      ("SparkJob", .list [
        asset [
          ("id", "job-002"), ("name", "curate_transactions"),
          ("qualifiedName", "spark.curate_transactions")]]),
      ("DbtModel", .list [
        asset [
          ("id", "job-003"), ("name", "build_daily_spend"),
          ("qualifiedName", "dbt.build_daily_spend")],
        asset [
          ("id", "job-005"), ("name", "publish_dashboard"),
          ("qualifiedName", "dbt.publish_dashboard")]]),
      ("GlossaryTerm", .list [
        asset [("id", "term-001"), ("name", "Spend")]])]),
    ("relationships", .list [
      relationship "consumes-input" "job-001" "file-001" "rel-001",
      relationship "produces-output" "job-001" "tbl-001" "rel-002",
      relationship "consumes-input" "job-002" "tbl-001" "rel-003",
      relationship "produces-output" "job-002" "tbl-002" "rel-004",
      relationship "consumes-input" "job-003" "tbl-002" "rel-005",
      relationship "produces-output" "job-003" "tbl-003" "rel-006",
      relationship "produces-output" "job-003" "tbl-004" "rel-007",
      relationship "consumes-input" "job-005" "tbl-003" "rel-008",
      relationship "produces-output" "job-005" "dash-001" "rel-009",
      relationship "consumes-input" "job-004" "tbl-003" "rel-010",
      relationship "produces-output" "job-004" "tbl-001" "rel-011"])]

end DataLineage.Catalog
