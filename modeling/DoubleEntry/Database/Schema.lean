import DoubleEntry.Text.Basic

/-!
# The database schema

The tables of the ledger as statements that create what is not there yet, so that they can be run
on every start. They are run together as one script.
-/

namespace DoubleEntry.Database.Schema

def lead : String :=
  "-- Ledger schema. Idempotent: safe to run on every start."

def journals : String :=
  "CREATE TABLE IF NOT EXISTS tally_journals ( id UUID PRIMARY KEY, name TEXT NOT NULL," ++
    " code TEXT, description TEXT, created_at TIMESTAMPTZ NOT NULL, modified_at " ++
    "TIMESTAMPTZ NOT NULL, CONSTRAINT tally_journals_code_key UNIQUE (code) );"

def accounts : String :=
  "CREATE TABLE IF NOT EXISTS tally_accounts ( id UUID PRIMARY KEY, code TEXT NOT NULL," ++
    " name TEXT NOT NULL, normal_balance TEXT NOT NULL CHECK (normal_balance IN ('DEBIT'," ++
    " 'CREDIT')), description TEXT, metadata JSONB NOT NULL DEFAULT '\x7b\x7d'::jsonb, " ++
    "created_at TIMESTAMPTZ NOT NULL, modified_at TIMESTAMPTZ NOT NULL, CONSTRAINT " ++
    "tally_accounts_code_key UNIQUE (code) );"

/-- The table of templates, each kept as one JSON definition. -/
def templates : String :=
  "CREATE TABLE IF NOT EXISTS tally_tx_templates ( id UUID PRIMARY KEY, code TEXT NOT " ++
    "NULL, definition JSONB NOT NULL, created_at TIMESTAMPTZ NOT NULL, CONSTRAINT " ++
    "tally_tx_templates_code_key UNIQUE (code) );"

def transactions : String :=
  "CREATE TABLE IF NOT EXISTS tally_transactions ( id UUID PRIMARY KEY, tx_template_id " ++
    "UUID NOT NULL REFERENCES tally_tx_templates (id), template_code TEXT NOT NULL, " ++
    "journal_id UUID NOT NULL REFERENCES tally_journals (id), correlation_id TEXT NOT " ++
    "NULL, external_id TEXT, effective DATE NOT NULL, description TEXT, metadata JSONB, " ++
    "reverses UUID REFERENCES tally_transactions (id), created_at TIMESTAMPTZ NOT NULL, " ++
    "CONSTRAINT tally_transactions_external_id_key UNIQUE (external_id), CONSTRAINT " ++
    "tally_transactions_reverses_key UNIQUE (reverses) );"

def entries : String :=
  "CREATE TABLE IF NOT EXISTS tally_entries ( id UUID PRIMARY KEY, transaction_id UUID " ++
    "NOT NULL REFERENCES tally_transactions (id), journal_id UUID NOT NULL REFERENCES " ++
    "tally_journals (id), account_id UUID NOT NULL REFERENCES tally_accounts (id), " ++
    "sequence INTEGER NOT NULL CHECK (sequence > 0), entry_type TEXT NOT NULL, currency " ++
    "TEXT NOT NULL, direction TEXT NOT NULL CHECK (direction IN ('DEBIT', 'CREDIT')), " ++
    "layer TEXT NOT NULL CHECK (layer IN ('PENDING', 'SETTLED')), units NUMERIC NOT NULL " ++
    "CHECK (units >= 0), description TEXT, created_at TIMESTAMPTZ NOT NULL, CONSTRAINT " ++
    "tally_entries_position_key UNIQUE (transaction_id, sequence) );"

/-- The entries of an account by journal and currency. -/
def entriesByCurrency : String :=
  "CREATE INDEX IF NOT EXISTS tally_entries_account_idx ON tally_entries (account_id, " ++
    "journal_id, currency);"

/-- The entries of an account in the order of time. -/
def entriesByTime : String :=
  "CREATE INDEX IF NOT EXISTS tally_entries_account_history_idx ON tally_entries " ++
    "(account_id, created_at, id);"

def balances : String :=
  "CREATE TABLE IF NOT EXISTS tally_balances ( account_id UUID NOT NULL REFERENCES " ++
    "tally_accounts (id), journal_id UUID NOT NULL REFERENCES tally_journals (id), " ++
    "currency TEXT NOT NULL, layer TEXT NOT NULL CHECK (layer IN ('PENDING', 'SETTLED'))," ++
    " debit_total NUMERIC NOT NULL DEFAULT 0 CHECK (debit_total >= 0), credit_total " ++
    "NUMERIC NOT NULL DEFAULT 0 CHECK (credit_total >= 0), version BIGINT NOT NULL " ++
    "DEFAULT 0, last_transaction_id UUID, created_at TIMESTAMPTZ NOT NULL, modified_at " ++
    "TIMESTAMPTZ NOT NULL, PRIMARY KEY (account_id, journal_id, currency, layer) );"

def outboxEvents : String :=
  "CREATE TABLE IF NOT EXISTS tally_outbox_events ( sequence BIGINT PRIMARY KEY CHECK " ++
    "(sequence > 0), id UUID NOT NULL, event_type TEXT NOT NULL, event_version INTEGER " ++
    "NOT NULL, payload JSONB NOT NULL, recorded_at TIMESTAMPTZ NOT NULL );"

def outboxCursors : String :=
  "CREATE TABLE IF NOT EXISTS tally_outbox_cursors ( consumer TEXT PRIMARY KEY, " ++
    "sequence BIGINT NOT NULL CHECK (sequence >= 0), updated_at TIMESTAMPTZ NOT NULL " ++
    "DEFAULT NOW() );"

def statements : List String :=
  [journals, accounts, templates, transactions, entries, entriesByCurrency, entriesByTime, balances,
    outboxEvents, outboxCursors]

def script : String := Text.joinWith " " (lead :: statements)

end DoubleEntry.Database.Schema
