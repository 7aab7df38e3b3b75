/-!
The names that entitlements are written in: plans, limits and features.

Each has a wire name, under which it is stored and sent, and a member name, under which
messages show it.
-/

namespace Entitlement

def version : String := "0.1.0"

inductive Plan where
  | starter
  | pro
  | business
  | enterprise
  deriving DecidableEq, Repr

namespace Plan

def all : List Plan := [starter, pro, business, enterprise]

def wire : Plan → String
  | starter => "STARTER"
  | pro => "PRO"
  | business => "BUSINESS"
  | enterprise => "ENTERPRISE"

def member : Plan → String := wire

def rank : Plan → Nat
  | starter => 0
  | pro => 1
  | business => 2
  | enterprise => 3

def ofWire? (s : String) : Option Plan := all.find? (·.wire == s)
def ofMember? (s : String) : Option Plan := all.find? (·.member == s)

def display : Plan → String
  | starter => "Starter"
  | pro => "Professional"
  | business => "Business"
  | enterprise => "Enterprise"

def description : Plan → String
  | starter => "Basic security scanning for individual developers"
  | pro => "Advanced security features for professional teams"
  | business => "Comprehensive security platform for businesses"
  | enterprise => "Full-featured security platform with custom support"

end Plan

inductive Limit where
  | scansPerDay
  | maxWorkspaces
  | maxUsersPerWorkspace
  | retentionDays
  deriving DecidableEq, Repr

namespace Limit

def all : List Limit := [scansPerDay, maxWorkspaces, maxUsersPerWorkspace, retentionDays]

def wire : Limit → String
  | scansPerDay => "scansPerDay"
  | maxWorkspaces => "maxWorkspaces"
  | maxUsersPerWorkspace => "maxUsersPerWorkspace"
  | retentionDays => "retentionDays"

def member : Limit → String
  | scansPerDay => "SCANS_PER_DAY"
  | maxWorkspaces => "MAX_WORKSPACES"
  | maxUsersPerWorkspace => "MAX_USERS_PER_WORKSPACE"
  | retentionDays => "RETENTION_DAYS"

def field : Limit → String
  | scansPerDay => "scans_per_day"
  | maxWorkspaces => "max_workspaces"
  | maxUsersPerWorkspace => "max_users_per_workspace"
  | retentionDays => "retention_days"

def ofWire? (s : String) : Option Limit := all.find? (·.wire == s)
def ofMember? (s : String) : Option Limit := all.find? (·.member == s)

end Limit

inductive Feature where
  | advancedScan
  | historicalScan
  | customRules
  | scheduledScans
  | apiAccess
  | reporting
  | exportReports
  | teamManagement
  | ssoLogin
  | roleCustomization
  | auditLog
  | prioritySupport
  deriving DecidableEq, Repr

namespace Feature

def all : List Feature :=
  [advancedScan, historicalScan, customRules, scheduledScans, apiAccess, reporting, exportReports,
    teamManagement, ssoLogin, roleCustomization, auditLog, prioritySupport]

/-- The stored spelling of priority support has a third `p`. -/
def wire : Feature → String
  | advancedScan => "hasAdvancedScan"
  | historicalScan => "hasHistoricalScan"
  | customRules => "hasCustomRules"
  | scheduledScans => "hasScheduledScans"
  | apiAccess => "hasApiAccess"
  | reporting => "hasReporting"
  | exportReports => "hasExportReports"
  | teamManagement => "hasTeamManagement"
  | ssoLogin => "hasSsoLogin"
  | roleCustomization => "hasRoleCustomization"
  | auditLog => "hasAuditLog"
  | prioritySupport => "hasPrioritySuppport"

def member : Feature → String
  | advancedScan => "ADVANCED_SCAN"
  | historicalScan => "HISTORICAL_SCAN"
  | customRules => "CUSTOM_RULES"
  | scheduledScans => "SCHEDULED_SCANS"
  | apiAccess => "API_ACCESS"
  | reporting => "REPORTING"
  | exportReports => "EXPORT_REPORTS"
  | teamManagement => "TEAM_MANAGEMENT"
  | ssoLogin => "SSO_LOGIN"
  | roleCustomization => "ROLE_CUSTOMIZATION"
  | auditLog => "AUDIT_LOG"
  | prioritySupport => "PRIORITY_SUPPORT"

def ofWire? (s : String) : Option Feature := all.find? (·.wire == s)
def ofMember? (s : String) : Option Feature := all.find? (·.member == s)

end Feature

end Entitlement
