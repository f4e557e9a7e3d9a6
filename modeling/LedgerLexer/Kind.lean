/-
The kinds of tokens and their names. A directive is written in the source as its
keyword, and the name of its kind is the keyword in capitals; every other kind has a
name of its own. Each kind has a second name for records, in which the capitals mark
the parts of the word.
-/

import LedgerLexer.Shape

namespace LedgerLexer

inductive Directive where
  | transaction
  | balance
  | openAccount
  | closeAccount
  | commodity
  | pad
  | event
  | price
  | note
  | document
  | query
  | custom
  | pushTag
  | popTag
  | pushMeta
  | popMeta
  | setting
  | includeFile
  | plugin
  deriving DecidableEq

namespace Directive

def all : List Directive :=
  [transaction, balance, openAccount, closeAccount, commodity, pad, event, price, note, document,
    query, custom, pushTag, popTag, pushMeta, popMeta, setting, includeFile, plugin]

def keyword : Directive → Text
  | transaction => "txn".toList
  | balance => "balance".toList
  | openAccount => "open".toList
  | closeAccount => "close".toList
  | commodity => "commodity".toList
  | pad => "pad".toList
  | event => "event".toList
  | price => "price".toList
  | note => "note".toList
  | document => "document".toList
  | query => "query".toList
  | custom => "custom".toList
  | pushTag => "pushtag".toList
  | popTag => "poptag".toList
  | pushMeta => "pushmeta".toList
  | popMeta => "popmeta".toList
  | setting => "option".toList
  | includeFile => "include".toList
  | plugin => "plugin".toList

def ofKeyword? (word : Text) : Option Directive :=
  all.find? (fun directive => directive.keyword == word)

def label (directive : Directive) : Text :=
  directive.keyword.map Char.toUpper

def recordName : Directive → Text
  | transaction => "Txn".toList
  | balance => "Balance".toList
  | openAccount => "Open".toList
  | closeAccount => "Close".toList
  | commodity => "Commodity".toList
  | pad => "Pad".toList
  | event => "Event".toList
  | price => "Price".toList
  | note => "Note".toList
  | document => "Document".toList
  | query => "Query".toList
  | custom => "Custom".toList
  | pushTag => "PushTag".toList
  | popTag => "PopTag".toList
  | pushMeta => "PushMeta".toList
  | popMeta => "PopMeta".toList
  | setting => "Option".toList
  | includeFile => "Include".toList
  | plugin => "Plugin".toList

end Directive

def Mark.label : Mark → Text
  | comma => "COMMA".toList
  | pipe => "PIPE".toList
  | atSign => "AT".toList
  | doubleAt => "ATAT".toList
  | openBrace => "LCURL".toList
  | doubleOpenBrace => "LCURLCURL".toList
  | closeBrace => "RCURL".toList
  | doubleCloseBrace => "RCURLCURL".toList
  | tilde => "TILDE".toList

def Mark.recordName : Mark → Text
  | comma => "Comma".toList
  | pipe => "Pipe".toList
  | atSign => "At".toList
  | doubleAt => "AtAt".toList
  | openBrace => "LCurl".toList
  | doubleOpenBrace => "LCurlCurl".toList
  | closeBrace => "RCurl".toList
  | doubleCloseBrace => "RCurlCurl".toList
  | tilde => "Tilde".toList

inductive Kind where
  | date
  | lineBreak
  | indent
  | account
  | currency
  | string
  | number
  | tag
  | link
  | flag
  | error
  | key
  | bool
  | null
  | punctuation (mark : Mark)
  | keyword (directive : Directive)
  deriving DecidableEq

namespace Kind

def all : List Kind :=
  [date, lineBreak, indent, account, currency, string, number, tag, link, flag, error, key,
    bool, null] ++ Mark.all.map punctuation ++ Directive.all.map keyword

def label : Kind → Text
  | date => "DATE".toList
  | lineBreak => "EOL".toList
  | indent => "INDENT".toList
  | account => "ACCOUNT".toList
  | currency => "CURRENCY".toList
  | string => "STRING".toList
  | number => "NUMBER".toList
  | tag => "TAG".toList
  | link => "LINK".toList
  | flag => "FLAG".toList
  | error => "ERROR".toList
  | key => "KEY".toList
  | bool => "BOOL".toList
  | null => "NULL".toList
  | punctuation mark => mark.label
  | keyword directive => directive.label

def ofLabel? (label : Text) : Option Kind :=
  all.find? (fun kind => kind.label == label)

def recordName : Kind → Text
  | date => "Date".toList
  | lineBreak => "Eol".toList
  | indent => "Indent".toList
  | account => "Account".toList
  | currency => "Currency".toList
  | string => "String".toList
  | number => "Number".toList
  | tag => "Tag".toList
  | link => "Link".toList
  | flag => "Flag".toList
  | error => "Error".toList
  | key => "Key".toList
  | bool => "Bool".toList
  | null => "Null".toList
  | punctuation mark => mark.recordName
  | keyword directive => directive.recordName

def ofKeyword? (word : Text) : Option Kind :=
  (Directive.ofKeyword? word).map keyword

/-- Line breaks and indents arrange the other tokens and say nothing themselves. -/
def IsLayout (kind : Kind) : Prop :=
  kind = lineBreak ∨ kind = indent

instance (kind : Kind) : Decidable kind.IsLayout :=
  inferInstanceAs (Decidable (_ ∨ _))

end Kind

end LedgerLexer
