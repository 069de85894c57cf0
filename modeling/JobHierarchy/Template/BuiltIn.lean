import JobHierarchy.Template.Kind
/-!
# Built-in definitions

The definition of each kind that is used where no directory overrides it.
-/

namespace JobHierarchy.TemplateKind

/-- Lines of the built-in pipeline definition. -/
def pipelineLines : List String := [
  "<?xml version='1.1' encoding='UTF-8'?>",
  "<flow-definition plugin=\"workflow-job\">",
  "  <description></description>",
  "  <keepDependencies>false</keepDependencies>",
  "  <properties/>",
  "  <definition class=\"org.jenkinsci.plugins.workflow.cps.CpsFlowDefinition\" plugin=\"workflow-cps\">",
  "    <script>\x7b\x7bscript\x7d\x7d</script>",
  "    <sandbox>true</sandbox>",
  "  </definition>",
  "  <triggers/>",
  "  <disabled>false</disabled>",
  "</flow-definition>"]

/-- Lines of the built-in multibranch definition. -/
def multibranchLines : List String := [
  "<?xml version='1.1' encoding='UTF-8'?>",
  "<org.jenkinsci.plugins.workflow.multibranch.WorkflowMultiBranchProject plugin=\"workflow-multibranch\">",
  "  <properties/>",
  "  <folderViews class=\"jenkins.branch.MultiBranchProjectViewHolder\" plugin=\"branch-api\">",
  "    <owner class=\"org.jenkinsci.plugins.workflow.multibranch.WorkflowMultiBranchProject\" reference=\"../..\"/>",
  "  </folderViews>",
  "  <orphanedItemStrategy class=\"com.cloudbees.hudson.plugins.folder.computed.DefaultOrphanedItemStrategy\" plugin=\"cloudbees-folder\">",
  "    <pruneDeadBranches>true</pruneDeadBranches>",
  "    <daysToKeep>-1</daysToKeep>",
  "    <numToKeep>-1</numToKeep>",
  "  </orphanedItemStrategy>",
  "  <triggers/>",
  "  <sources class=\"jenkins.branch.MultiBranchProject$BranchSourceList\" plugin=\"branch-api\">",
  "    <data>",
  "      <jenkins.branch.BranchSource>",
  "        <source class=\"jenkins.plugins.git.GitSCMSource\" plugin=\"git\">",
  "          <id>jobtree-source</id>",
  "          <remote>\x7b\x7brepo\x7d\x7d</remote>",
  "          <credentialsId></credentialsId>",
  "          <traits>",
  "            <jenkins.plugins.git.traits.BranchDiscoveryTrait/>",
  "          </traits>",
  "        </source>",
  "        <strategy class=\"jenkins.branch.DefaultBranchPropertyStrategy\">",
  "          <properties class=\"empty-list\"/>",
  "        </strategy>",
  "      </jenkins.branch.BranchSource>",
  "    </data>",
  "    <owner class=\"org.jenkinsci.plugins.workflow.multibranch.WorkflowMultiBranchProject\" reference=\"../..\"/>",
  "  </sources>",
  "  <factory class=\"org.jenkinsci.plugins.workflow.multibranch.WorkflowBranchProjectFactory\">",
  "    <owner class=\"org.jenkinsci.plugins.workflow.multibranch.WorkflowMultiBranchProject\" reference=\"../..\"/>",
  "    <scriptPath>Jenkinsfile</scriptPath>",
  "  </factory>",
  "</org.jenkinsci.plugins.workflow.multibranch.WorkflowMultiBranchProject>"]

/-- Lines of the built-in freestyle definition. -/
def freestyleLines : List String := [
  "<?xml version='1.1' encoding='UTF-8'?>",
  "<project>",
  "  <description></description>",
  "  <keepDependencies>false</keepDependencies>",
  "  <properties/>",
  "  <scm class=\"hudson.scm.NullSCM\"/>",
  "  <canRoam>true</canRoam>",
  "  <disabled>false</disabled>",
  "  <triggers/>",
  "  <concurrentBuild>false</concurrentBuild>",
  "  <builders>",
  "    <hudson.tasks.Shell>",
  "      <command>\x7b\x7bcommand\x7d\x7d</command>",
  "    </hudson.tasks.Shell>",
  "  </builders>",
  "  <publishers/>",
  "  <buildWrappers/>",
  "</project>"]

/-- Lines of the built-in folder definition. -/
def folderLines : List String := [
  "<?xml version='1.1' encoding='UTF-8'?>",
  "<com.cloudbees.hudson.plugins.folder.Folder plugin=\"cloudbees-folder\">",
  "  <description></description>",
  "  <properties/>",
  "  <folderViews class=\"com.cloudbees.hudson.plugins.folder.views.DefaultFolderViewHolder\">",
  "    <views>",
  "      <hudson.model.AllView>",
  "        <owner class=\"com.cloudbees.hudson.plugins.folder.Folder\" reference=\"../../../..\"/>",
  "        <name>All</name>",
  "        <filterExecutors>false</filterExecutors>",
  "        <filterQueue>false</filterQueue>",
  "        <properties class=\"hudson.model.View$PropertyList\"/>",
  "      </hudson.model.AllView>",
  "    </views>",
  "    <tabBar class=\"hudson.views.DefaultViewsTabBar\"/>",
  "  </folderViews>",
  "  <healthMetrics/>",
  "</com.cloudbees.hudson.plugins.folder.Folder>"]

/-- Each line ends in a line break. -/
def builtIn (kind : TemplateKind) : String :=
  let lines := match kind with
    | .pipeline => pipelineLines
    | .multibranch => multibranchLines
    | .freestyle => freestyleLines
    | .folder => folderLines
  String.join (lines.map (· ++ "\n"))

end JobHierarchy.TemplateKind
