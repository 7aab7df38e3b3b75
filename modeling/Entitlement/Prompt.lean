import Entitlement.Plan

/-!
What to tell someone who lacks a feature or has reached a limit.
-/

namespace Entitlement

/-- Reporting is part of every plan and has no prompt of its own. -/
def Feature.prompt? : Feature → Option String
  | .advancedScan => some "Upgrade to Pro plan or higher to access advanced scanning features."
  | .historicalScan => some "Upgrade to Pro plan or higher to access historical scanning."
  | .customRules => some "Upgrade to Business plan or higher to create custom security rules."
  | .scheduledScans => some "Upgrade to Pro plan or higher to schedule automated scans."
  | .apiAccess => some "Upgrade to Pro plan or higher to access the API."
  | .reporting => none
  | .exportReports => some "Upgrade to Pro plan or higher to export reports."
  | .teamManagement => some "Upgrade to Pro plan or higher to manage team members."
  | .ssoLogin => some "Upgrade to Business plan or higher to use SSO login."
  | .roleCustomization => some "Upgrade to Business plan or higher to customize roles."
  | .auditLog => some "Upgrade to Business plan or higher to access audit logs."
  | .prioritySupport => some "Upgrade to Enterprise plan to get priority support."

def Limit.prompt : Limit → String
  | .scansPerDay =>
    "You have reached your daily scan limit. Upgrade your plan for more scans per day."
  | .maxWorkspaces =>
    "You have reached the maximum number of workspaces. " ++
      "Upgrade your plan to create more workspaces."
  | .maxUsersPerWorkspace =>
    "You have reached the maximum users per workspace. Upgrade your plan to add more users."
  | .retentionDays =>
    "Your plan has limited scan history. Upgrade for longer history retention."

def defaultPrompt : String := "Upgrade your plan to unlock this feature."

end Entitlement
